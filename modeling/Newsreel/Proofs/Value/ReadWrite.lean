import Newsreel.Context.Path

/-!
Laws of reading and writing at paths into a value.

A write makes objects on its way before it is known whether it goes through, so that a write which
fails leaves the value alone is a theorem here and not a convention: below an object that has just
been made nothing can fail. Reading and writing take different steps through objects, arrays and
null, and every law is an induction on the segments with one case for each kind of container.
-/

namespace Newsreel

namespace Fields

@[simp] theorem find?_nil (name : String) : find? name [] = none := rfl

theorem find?_insert_self (name : String) (value : Value) (fields : Fields) :
    find? name (insert name value fields) = some value := by
  induction fields with
  | nil => simp [insert, find?]
  | cons field rest ih =>
    obtain ⟨key, old⟩ := field
    by_cases same : key = name
    · simp [insert, find?, same]
    · simp [insert, find?, same, ih]

theorem find?_insert_of_ne {name other : String} (different : name ≠ other) (value : Value)
    (fields : Fields) : find? other (insert name value fields) = find? other fields := by
  induction fields with
  | nil => simp [insert, find?, different]
  | cons field rest ih =>
    obtain ⟨key, old⟩ := field
    by_cases same : key = name
    · subst same
      simp [insert, find?, different]
    · simp only [insert, if_neg same, find?, ih]

/-- Writing what is already there changes nothing, not even the order. -/
theorem insert_of_find? {name : String} {value : Value} {fields : Fields}
    (found : find? name fields = some value) : insert name value fields = fields := by
  induction fields with
  | nil => cases found
  | cons field rest ih =>
    obtain ⟨key, old⟩ := field
    by_cases same : key = name
    · simp only [find?, if_pos same, Option.some.injEq] at found
      simp [insert, same, found]
    · simp only [find?, if_neg same] at found
      simp only [insert, if_neg same, ih found]

theorem mem_of_find? {name : String} {value : Value} {fields : Fields}
    (found : find? name fields = some value) : (name, value) ∈ fields := by
  induction fields with
  | nil => cases found
  | cons field rest ih =>
    obtain ⟨key, old⟩ := field
    rw [find?] at found
    split at found
    · next same =>
      cases found
      rw [same]
      exact List.mem_cons_self
    · exact List.mem_cons_of_mem _ (ih found)

theorem insert_insert (name : String) (first second : Value) (fields : Fields) :
    insert name second (insert name first fields) = insert name second fields := by
  induction fields with
  | nil => simp [insert]
  | cons field rest ih =>
    obtain ⟨key, old⟩ := field
    by_cases same : key = name
    · simp [insert, same]
    · simp [insert, same, ih]

end Fields

namespace Path

/-- Two paths part where both have a segment and no container takes the two segments for the same
place: as names of fields they differ, and they are not the same index. -/
def Apart (first second : List String) : Prop :=
  ∃ (k : Nat) (a b : String), first[k]? = some a ∧ second[k]? = some b ∧ a ≠ b ∧
    ∀ i, Text.count? a = some i → Text.count? b ≠ some i

/-- Paths part at their heads or below them. -/
theorem apart_cons_iff (a b : String) (first second : List String) :
    Apart (a :: first) (b :: second) ↔
      (a ≠ b ∧ ∀ i, Text.count? a = some i → Text.count? b ≠ some i) ∨ Apart first second := by
  constructor
  · rintro ⟨k, c, d, here, there, parted⟩
    cases k with
    | zero =>
      simp only [List.getElem?_cons_zero, Option.some.injEq] at here there
      subst here there
      exact Or.inl parted
    | succ k => exact Or.inr ⟨k, c, d, by simpa using here, by simpa using there, parted⟩
  · rintro (parted | ⟨k, c, d, here, there, parted⟩)
    · exact ⟨0, a, b, rfl, rfl, parted⟩
    · exact ⟨k + 1, c, d, by simpa using here, by simpa using there, parted⟩

theorem Apart.ne_nil {first second : List String} (apart : Apart first second) : second ≠ [] := by
  rintro rfl
  obtain ⟨k, a, b, -, there, -⟩ := apart
  simp at there

end Path

namespace Value

variable {path : String} {new : Value}

/-! What a read and a write do at each kind of container. -/

@[simp] theorem at?_nil (value : Value) : at? [] value = some value := by
  cases value <;> rfl

@[simp] theorem at?_object (segment : String) (rest : List String) (fields : Fields) :
    at? (segment :: rest) (.object fields) = (Fields.find? segment fields).bind (at? rest) := rfl

@[simp] theorem at?_array (segment : String) (rest : List String) (items : List Value) :
    at? (segment :: rest) (.array items) =
      (Text.count? segment).bind fun i => items[i]?.bind (at? rest) := rfl

theorem at?_item {segment : String} {i : Nat} (index : Text.count? segment = some i)
    (rest : List String) (items : List Value) :
    at? (segment :: rest) (.array items) = items[i]?.bind (at? rest) := by
  rw [at?_array, index, Option.bind_some]

@[simp] theorem put_nil (value : Value) : put path new [] value = (.ok (), new) := by
  rw [put]

theorem put_null (segment : String) (rest : List String) :
    put path new (segment :: rest) .null = put path new (segment :: rest) (.object []) := rfl

theorem put_object (segment : String) (rest : List String) (fields : Fields) :
    put path new (segment :: rest) (.object fields) =
      ((put path new rest ((Fields.find? segment fields).getD (.object []))).1,
        .object (Fields.insert segment
          (put path new rest ((Fields.find? segment fields).getD (.object []))).2 fields)) := rfl

theorem put_item {segment : String} {i : Nat} {items : List Value} {item : Value}
    (index : Text.count? segment = some i) (present : items[i]? = some item) (rest : List String) :
    put path new (segment :: rest) (.array items) =
      ((put path new rest item).1, .array (items.set i (put path new rest item).2)) := by
  simp only [put, opened, index, present]

theorem put_end {segment : String} {items : List Value}
    (index : Text.count? segment = some items.length) :
    put path new [segment] (.array items) = (.ok (), .array (items ++ [new])) := by
  simp [put, opened, index]

private theorem set_of_present {items : List Value} {i : Nat} {item : Value}
    (present : items[i]? = some item) : items.set i item = items := by
  obtain ⟨inside, rfl⟩ := List.getElem?_eq_some_iff.mp present
  exact List.set_getElem_self inside

private theorem getElem?_concat_of_ne {items : List Value} {i : Nat} (other : i ≠ items.length)
    (last : Value) : (items ++ [last])[i]? = items[i]? := by
  rcases Nat.lt_or_gt_of_ne other with inside | behind
  · exact List.getElem?_append_left inside
  · rw [List.getElem?_eq_none (by simp; omega), List.getElem?_eq_none (by omega)]

/-- What can happen to an array: an item changes, one is added at the end, or nothing is done, for
whatever value was to be written. -/
theorem put_array_cases (segment : String) (rest : List String) (items : List Value) :
    (∃ i item, Text.count? segment = some i ∧ items[i]? = some item) ∨
    (rest = [] ∧ Text.count? segment = some items.length) ∨
    (∃ error : String → StepError, ∀ path new, put path new (segment :: rest) (.array items) =
      (.error (error path), .array items)) := by
  cases index : Text.count? segment with
  | none =>
    refine Or.inr (Or.inr ⟨fun path => .invalidValue path .notAnIndex, fun path new => ?_⟩)
    simp only [put, opened, index]
  | some i =>
    cases present : items[i]? with
    | some item => exact Or.inl ⟨i, item, rfl, present⟩
    | none =>
      by_cases atEnd : rest = [] ∧ i = items.length
      · exact Or.inr (Or.inl ⟨atEnd.1, by rw [atEnd.2]⟩)
      · refine Or.inr (Or.inr ⟨.unresolved, fun path new => ?_⟩)
        simp only [put, opened, index, present, if_neg atEnd]

/-! Failure. -/

/-- Below an empty object every write goes through. -/
theorem put_empty_object (segments : List String) :
    (put path new segments (.object [])).1 = .ok () := by
  induction segments with
  | nil => rw [put_nil]
  | cons segment rest ih => simpa [put_object] using ih

/-- A write that fails leaves the value as it was. -/
theorem put_error {segments : List String} {value : Value} {error : StepError}
    (failure : (put path new segments value).1 = .error error) :
    (put path new segments value).2 = value := by
  induction segments generalizing value with
  | nil => simp at failure
  | cons segment rest ih =>
    cases value with
    | null =>
      rw [put_null, put_empty_object] at failure
      cases failure
    | object fields =>
      rw [put_object] at failure ⊢
      cases found : Fields.find? segment fields with
      | none =>
        simp only [found, Option.getD_none, put_empty_object] at failure
        cases failure
      | some child =>
        simp only [found, Option.getD_some] at failure ⊢
        rw [ih failure, Fields.insert_of_find? found]
    | array items =>
      rcases put_array_cases segment rest items with
        ⟨i, item, index, present⟩ | ⟨rfl, index⟩ | ⟨_, refused⟩
      · rw [put_item index present] at failure ⊢
        simp only at failure ⊢
        rw [ih failure, set_of_present present]
      · rw [put_end index] at failure
        cases failure
      · rw [refused]
    | _ => rfl

/-- What is written has no say in whether the write goes through. -/
theorem put_outcome (path : String) (first second : Value) (segments : List String)
    (value : Value) : (put path first segments value).1 = (put path second segments value).1 := by
  induction segments generalizing value with
  | nil => simp
  | cons segment rest ih =>
    cases value with
    | null => simp only [put_null, put_object, ih]
    | object fields => simp only [put_object, ih]
    | array items =>
      rcases put_array_cases segment rest items with
        ⟨i, item, index, present⟩ | ⟨rfl, index⟩ | ⟨_, refused⟩
      · simp only [put_item index present, ih]
      · simp only [put_end index]
      · simp only [refused]
    | _ => rfl

/-- The path that is named in faults has no say in anything else. -/
theorem put_path (path other : String) (new : Value) (segments : List String) (value : Value) :
    (put path new segments value).1.isOk = (put other new segments value).1.isOk ∧
      (put path new segments value).2 = (put other new segments value).2 := by
  induction segments generalizing value with
  | nil => simp
  | cons segment rest ih =>
    have inObject (fields : Fields) :
        (put path new (segment :: rest) (.object fields)).1.isOk =
            (put other new (segment :: rest) (.object fields)).1.isOk ∧
          (put path new (segment :: rest) (.object fields)).2 =
            (put other new (segment :: rest) (.object fields)).2 := by
      rw [put_object, put_object, (ih _).2]
      exact ⟨(ih _).1, rfl⟩
    cases value with
    | null => exact inObject []
    | object fields => exact inObject fields
    | array items =>
      rcases put_array_cases segment rest items with
        ⟨i, item, index, present⟩ | ⟨rfl, index⟩ | ⟨_, refused⟩
      · rw [put_item index present, put_item index present, (ih _).2]
        exact ⟨(ih _).1, rfl⟩
      · simp only [put_end index, and_self]
      · simp only [refused, and_true]
        rfl
    | _ => exact ⟨rfl, rfl⟩

/-! The laws. -/

/-- What was written is read. -/
theorem at?_put {segments : List String} {value : Value}
    (success : (put path new segments value).1 = .ok ()) :
    at? segments (put path new segments value).2 = some new := by
  induction segments generalizing value with
  | nil => simp
  | cons segment rest ih =>
    cases value with
    | null =>
      simp only [put_null, put_object, at?_object, Fields.find?_insert_self, Option.bind_some]
      exact ih (put_empty_object rest)
    | object fields =>
      rw [put_object] at success ⊢
      rw [at?_object, Fields.find?_insert_self, Option.bind_some]
      exact ih success
    | array items =>
      rcases put_array_cases segment rest items with
        ⟨i, item, index, present⟩ | ⟨rfl, index⟩ | ⟨_, refused⟩
      · rw [put_item index present] at success ⊢
        have inside : i < items.length := (List.getElem?_eq_some_iff.mp present).1
        rw [at?_item index, List.getElem?_set_self inside, Option.bind_some]
        exact ih success
      · rw [put_end index, at?_item index, List.getElem?_concat_length]
        rfl
      · rw [refused] at success
        cases success
    | _ => cases success

/-- Writing what is read changes nothing. -/
theorem put_of_at? {segments : List String} {value : Value} (found : at? segments value = some new) :
    put path new segments value = (.ok (), value) := by
  induction segments generalizing value with
  | nil =>
    rw [at?_nil, Option.some.injEq] at found
    rw [put_nil, found]
  | cons segment rest ih =>
    cases value with
    | object fields =>
      rw [at?_object] at found
      obtain ⟨child, here, below⟩ := Option.bind_eq_some_iff.mp found
      rw [put_object, here, Option.getD_some, ih below, Fields.insert_of_find? here]
    | array items =>
      rw [at?_array] at found
      obtain ⟨i, index, inItem⟩ := Option.bind_eq_some_iff.mp found
      obtain ⟨item, present, below⟩ := Option.bind_eq_some_iff.mp inItem
      rw [put_item index present, ih below, set_of_present present]
    | _ => cases found

/-- Of two writes at one path only the second one counts. -/
theorem put_put (path : String) (first second : Value) (segments : List String) (value : Value) :
    put path second segments (put path first segments value).2 =
      put path second segments value := by
  induction segments generalizing value with
  | nil => simp
  | cons segment rest ih =>
    cases value with
    | null =>
      simp only [put_null, put_object, Fields.find?_insert_self, Fields.find?_nil,
        Option.getD_some, Option.getD_none, ih, Fields.insert_insert]
    | object fields =>
      simp only [put_object, Fields.find?_insert_self, Option.getD_some, ih, Fields.insert_insert]
    | array items =>
      rcases put_array_cases segment rest items with
        ⟨i, item, index, present⟩ | ⟨rfl, index⟩ | ⟨_, refused⟩
      · have inside : i < items.length := (List.getElem?_eq_some_iff.mp present).1
        rw [put_item index present, put_item index (List.getElem?_set_self inside),
          put_item index present, ih, List.set_set]
      · rw [put_end index, put_item index List.getElem?_concat_length, put_end index, put_nil]
        simp
      · rw [refused]
    | _ => rfl

/-- A write does not change what is read at a path that parts from its own. -/
theorem at?_put_of_apart {segments other : List String} (apart : Path.Apart segments other)
    (value : Value) : at? other (put path new segments value).2 = at? other value := by
  induction segments generalizing other value with
  | nil =>
    obtain ⟨k, a, b, here, -⟩ := apart
    simp at here
  | cons segment rest ih =>
    cases other with
    | nil => exact absurd rfl apart.ne_nil
    | cons name more =>
      rw [Path.apart_cons_iff] at apart
      have inObject (fields : Fields) :
          at? (name :: more) (put path new (segment :: rest) (.object fields)).2 =
            at? (name :: more) (.object fields) := by
        rw [put_object, at?_object, at?_object]
        by_cases same : segment = name
        · subst same
          have below : Path.Apart rest more := by simpa using apart
          rw [Fields.find?_insert_self, Option.bind_some, ih below]
          cases Fields.find? segment fields with
          | some child => rfl
          -- A field that was missing has been made empty, and the other path goes on below it.
          | none =>
            cases more with
            | nil => exact absurd rfl below.ne_nil
            | cons => rfl
        · rw [Fields.find?_insert_of_ne same]
      cases value with
      | null => exact inObject []
      | object fields => exact inObject fields
      | array items =>
        rcases put_array_cases segment rest items with
          ⟨i, item, index, present⟩ | ⟨rfl, index⟩ | ⟨_, refused⟩
        · rw [put_item index present, at?_array, at?_array]
          cases place : Text.count? name with
          | none => rfl
          | some j =>
            simp only [Option.bind_some]
            by_cases same : i = j
            · subst same
              have below : Path.Apart rest more := by
                rcases apart with ⟨-, parted⟩ | below
                · exact absurd place (parted i index)
                · exact below
              have inside : i < items.length := (List.getElem?_eq_some_iff.mp present).1
              rw [List.getElem?_set_self inside, present, Option.bind_some, Option.bind_some,
                ih below]
            · rw [List.getElem?_set_ne same]
        · rw [put_end index, at?_array, at?_array]
          cases place : Text.count? name with
          | none => rfl
          | some j =>
            have elsewhere : j ≠ items.length := by
              rintro rfl
              rcases apart with ⟨-, parted⟩ | ⟨k, a, b, here, -⟩
              · exact parted _ index place
              · simp at here
            rw [Option.bind_some, Option.bind_some, getElem?_concat_of_ne elsewhere]
        · rw [refused]
      | _ => rfl

/-- A write at a text is a write at another text, if the two are the same one, and else is not seen
there. Paths can differ and lead to one item, since an index can be written in several ways. -/
theorem at?_put_text (path : String) {segments other : List String} {value : Value}
    {old text : String} (here : at? segments value = some (.string old))
    (there : at? other value = some (.string text)) :
    (old = text ∧ ∀ new, at? other (put path new segments value).2 = some new) ∨
      ∀ new, at? other (put path new segments value).2 = some (.string text) := by
  induction segments generalizing other value with
  | nil =>
    rw [at?_nil, Option.some.injEq] at here
    subst here
    cases other with
    | nil =>
      rw [at?_nil, Option.some.injEq, Value.string.injEq] at there
      exact Or.inl ⟨there, fun new => by rw [put_nil, at?_nil]⟩
    | cons name more => cases there
  | cons segment rest ih =>
    cases value with
    | object fields =>
      cases other with
      | nil => cases there
      | cons name more =>
        rw [at?_object] at here there
        obtain ⟨child, present, below⟩ := Option.bind_eq_some_iff.mp here
        by_cases same : segment = name
        · subst same
          rw [present, Option.bind_some] at there
          simp only [put_object, present, Option.getD_some, at?_object, Fields.find?_insert_self,
            Option.bind_some]
          exact ih below there
        · refine Or.inr fun new => ?_
          rw [put_object, at?_object, Fields.find?_insert_of_ne same, there]
    | array items =>
      cases other with
      | nil => cases there
      | cons name more =>
        rw [at?_array] at here there
        obtain ⟨i, index, inItem⟩ := Option.bind_eq_some_iff.mp here
        obtain ⟨item, present, below⟩ := Option.bind_eq_some_iff.mp inItem
        obtain ⟨j, place, inOther⟩ := Option.bind_eq_some_iff.mp there
        have inside : i < items.length := (List.getElem?_eq_some_iff.mp present).1
        by_cases same : i = j
        · subst same
          rw [present, Option.bind_some] at inOther
          simp only [put_item index present, at?_item place, List.getElem?_set_self inside,
            Option.bind_some]
          exact ih below inOther
        · refine Or.inr fun new => ?_
          rw [put_item index present, at?_item place, List.getElem?_set_ne same, inOther]
    | _ => cases here

/-! Paths in two parts. -/

theorem at?_append (front back : List String) (value : Value) :
    at? (front ++ back) value = (at? front value).bind (at? back) := by
  induction front generalizing value with
  | nil => simp
  | cons segment rest ih =>
    have inside : at? (rest ++ back) = fun value => (at? rest value).bind (at? back) := funext ih
    cases value with
    | object fields => simp only [List.cons_append, at?_object, inside, Option.bind_assoc]
    | array items => simp only [List.cons_append, at?_array, inside, Option.bind_assoc]
    | _ => rfl

/-- A write below a place is a write into what lies there. -/
theorem put_append {front : List String} {value inner : Value}
    (found : at? front value = some inner) (back : List String) :
    put path new (front ++ back) value =
      ((put path new back inner).1, (put path (put path new back inner).2 front value).2) := by
  induction front generalizing value with
  | nil =>
    rw [at?_nil, Option.some.injEq] at found
    rw [found, List.nil_append, put_nil]
  | cons segment rest ih =>
    cases value with
    | object fields =>
      rw [at?_object] at found
      obtain ⟨child, here, below⟩ := Option.bind_eq_some_iff.mp found
      simp only [List.cons_append, put_object, here, Option.getD_some, ih below]
    | array items =>
      rw [at?_array] at found
      obtain ⟨i, index, inItem⟩ := Option.bind_eq_some_iff.mp found
      obtain ⟨item, present, below⟩ := Option.bind_eq_some_iff.mp inItem
      simp only [List.cons_append, put_item index present, ih below]
    | _ => cases found

end Value

end Newsreel
