import Newsreel.Proofs.Context.Braces
import Newsreel.Proofs.Context.Leaves
import Newsreel.Proofs.Context.ReadWrite
import Newsreel.Proofs.Value.Fields

/-!
Values as documents hold them.

A number in a document is finite, and an object has each of its names once. What is read from a
context or filled in from it is of that kind where all that the context and the scope hold is.
-/

namespace Newsreel

def Number.isFinite : Number → Bool
  | .int _ => true
  | .float x => Decimal.isFinite x

/-- A value that a document can hold. -/
inductive Value.Proper : Value → Prop
  | null : Proper .null
  | bool (b : Bool) : Proper (.bool b)
  | number {n : Number} (finite : n.isFinite = true) : Proper (.number n)
  | string (s : String) : Proper (.string s)
  | array {items : List Value} (each : ∀ item ∈ items, Proper item) : Proper (.array items)
  | object {fields : Fields} (nodup : (Fields.names fields).Nodup)
      (each : ∀ field ∈ fields, Proper field.2) : Proper (.object fields)

attribute [simp] Value.Proper.null Value.Proper.bool Value.Proper.string

namespace Value

@[simp] theorem proper_int (n : Int) : (Value.number (.int n)).Proper := .number rfl

@[simp] theorem proper_array_iff {items : List Value} :
    (Value.array items).Proper ↔ ∀ item ∈ items, item.Proper := by
  constructor
  · intro proper
    cases proper
    assumption
  · exact .array

@[simp] theorem proper_object_iff {fields : Fields} :
    (Value.object fields).Proper ↔
      (Fields.names fields).Nodup ∧ ∀ field ∈ fields, field.2.Proper := by
  constructor
  · intro proper
    cases proper
    constructor <;> assumption
  · rintro ⟨nodup, each⟩
    exact .object nodup each

/-- What lies in a proper value is proper. -/
theorem Proper.at? {value found : Value} (proper : value.Proper) {segments : List String}
    (present : value.at? segments = some found) : found.Proper := by
  induction segments generalizing value with
  | nil =>
    rw [at?_nil, Option.some.injEq] at present
    exact present ▸ proper
  | cons segment rest ih =>
    cases proper with
    | array each =>
      obtain ⟨i, -, present⟩ := Option.bind_eq_some_iff.mp present
      obtain ⟨item, listed, present⟩ := Option.bind_eq_some_iff.mp present
      exact ih (each item (List.mem_of_getElem? listed)) present
    | object nodup each =>
      obtain ⟨child, listed, present⟩ := Option.bind_eq_some_iff.mp present
      exact ih (each _ (Fields.mem_of_find? listed)) present
    | null | bool | number | string => cases present

end Value

/-- All that a scope binds is proper. -/
def Scope.Proper (scope : Scope) : Prop :=
  ∀ frame ∈ scope.frames, ∀ value, frame.value = some value → value.Proper

/-- All that a context holds is proper. -/
structure Context.Proper (context : Context) : Prop where
  data : context.data.Proper
  config : ∀ field ∈ context.config.extra, field.2.Proper

theorem Scope.proper_root : Scope.root.Proper := by
  intro frame listed
  cases listed

theorem Scope.Proper.child {scope : Scope} (proper : scope.Proper) {frame : Frame}
    (bound : ∀ value, frame.value = some value → value.Proper) : (scope.child frame).Proper := by
  intro other listed
  rcases List.mem_cons.mp listed with rfl | outer
  · exact bound
  · exact proper other outer

theorem JobConfig.toValue_proper {config : JobConfig}
    (proper : ∀ field ∈ config.extra, field.2.Proper) : config.toValue.Proper := by
  refine .object (Fields.nodup_ofList _) fun field listed => ?_
  rcases List.mem_append.mp (Fields.mem_ofList listed) with own | further
  · simp only [List.mem_cons, List.not_mem_nil, or_false] at own
    rcases own with rfl | rfl | rfl | rfl | rfl | rfl | rfl | rfl
    all_goals constructor
  · exact proper field further

namespace Context

variable {context : Context} {scope : Scope}

/-- A place outside the data holds what the scope or the configuration has. -/
theorem Proper.expand (proper : context.Proper) (bound : scope.Proper) {path : String}
    {segments rest : List String} {value : Value}
    (found : context.expand path scope segments = .found (.detached value rest)) :
    value.Proper := by
  unfold Context.expand at found
  split at found
  · cases found
  · split at found <;> cases found
  · split at found
    · rw [replaceHead] at found
      split at found <;> cases found
    · cases found
  · split at found
    · cases found
    · next frame inner =>
      split at found
      · rw [replaceHead] at found
        split at found <;> cases found
      · next held =>
        cases found
        exact bound frame (List.mem_of_find?_eq_some inner) _ held
      · cases found
  · cases found
    exact JobConfig.toValue_proper proper.config
  · cases found
    exact .string _
  · cases found

theorem Proper.locateWithin (proper : context.Proper) (bound : scope.Proper) {path : String}
    {steps : Nat} {segments rest : List String} {value : Value}
    (found : context.locateWithin path scope steps segments = .ok (.detached value rest)) :
    value.Proper := by
  induction steps generalizing segments with
  | zero => cases found
  | succ steps ih =>
    rw [Context.locateWithin] at found
    split at found
    · next location expanded =>
      cases found
      exact proper.expand bound expanded
    · cases found
    · exact ih found

theorem Proper.get (proper : context.Proper) (bound : scope.Proper) {path : String} {value : Value}
    (read : context.get path scope = .ok value) : value.Proper := by
  obtain ⟨location, located, read⟩ := Outcome.bind_ok_iff.mp read
  cases location with
  | data segments =>
    rw [Context.read] at read
    split at read
    · next found =>
      cases read
      exact proper.data.at? found
    · cases read
  | detached held rest =>
    obtain ⟨segments, -, located⟩ := Outcome.bind_ok_iff.mp located
    rw [Context.read] at read
    split at read
    · next found =>
      cases read
      exact (proper.locateWithin bound located).at? found
    · cases read
  | index n =>
    cases read
    exact Value.proper_int n

variable {apiKeyName : Option String}

theorem Proper.resolve (proper : context.Proper) (bound : scope.Proper) {placeholder : Placeholder}
    {value : Value} (found : context.resolve apiKeyName scope placeholder = .ok value) :
    value.Proper := by
  unfold Context.resolve at found
  split at found
  · cases apiKeyName with
    | none => cases found
    | some name =>
      dsimp only at found
      split at found
      · cases found
        exact .string _
      · cases found
  · exact proper.get bound found

theorem Proper.formatTemplate (proper : context.Proper) (bound : scope.Proper) {template : String}
    {value : Value} (filled : context.formatTemplate apiKeyName scope template = .ok value) :
    value.Proper := by
  rw [Context.formatTemplate] at filled
  split at filled
  · obtain ⟨parts, -, filled⟩ := Outcome.bind_ok_iff.mp filled
    split at filled
    · exact proper.resolve bound filled
    · obtain ⟨text, -, filled⟩ := Outcome.bind_ok_iff.mp filled
      cases filled
      exact .string _
  · cases filled
    exact .string _

theorem Proper.format (proper : context.Proper) (bound : scope.Proper) {template value : Value}
    (written : template.Proper) (filled : context.format scope template = .ok value) :
    value.Proper := by
  cases template with
  | string text => exact proper.formatTemplate bound filled
  | _ =>
    cases filled
    exact written

theorem Proper.deepFormat (proper : context.Proper) (bound : scope.Proper) {template value : Value}
    (written : template.Proper) (filled : context.deepFormat apiKeyName scope template = .ok value) :
    value.Proper := by
  induction written generalizing value with
  | null | bool | number =>
    cases filled
    constructor
    try assumption
  | string text => exact proper.formatTemplate bound filled
  | array each ih =>
    obtain ⟨results, within, filled⟩ := Outcome.bind_ok_iff.mp filled
    cases filled
    refine .array fun result listed => ?_
    obtain ⟨place, here⟩ := List.mem_iff_getElem?.mp listed
    obtain ⟨item, there, made⟩ := exists_at_of_forall₂ (deepFormatItems_ok within).flip here
    exact ih item (List.mem_of_getElem? there) made
  | object nodup each ih =>
    obtain ⟨results, rfl, names⟩ := fills_of_deepFormat filled
    obtain ⟨_, within, same⟩ := Outcome.bind_ok_iff.mp filled
    cases same
    have once : (Fields.names results).Nodup := by rwa [Fields.names, names]
    refine .object once fun result listed => ?_
    obtain ⟨place, here⟩ := List.mem_iff_getElem?.mp listed
    obtain ⟨field, there, -, made⟩ := exists_at_of_forall₂ (deepFormatFields_ok within).flip here
    exact ih field (List.mem_of_getElem? there) made

theorem Proper.arrayItems (proper : context.Proper) (bound : scope.Proper) {array value : Value}
    {base : Option String} (written : array.Proper)
    (found : context.arrayItems array scope = .ok (value, base)) : value.Proper := by
  cases array with
  | string spec =>
    obtain ⟨location, -, found⟩ := Outcome.bind_ok_iff.mp found
    obtain ⟨read, got, found⟩ := Outcome.bind_ok_iff.mp found
    cases found
    exact proper.get bound got
  | array items =>
    obtain ⟨filled, made, found⟩ := Outcome.bind_ok_iff.mp found
    cases found
    exact proper.deepFormat bound written made
  | _ => cases found

/-- A loop goes through proper items. -/
theorem Proper.iterations (proper : context.Proper) (bound : scope.Proper) {array : Value}
    {loopId : String} {iterations : List Iteration} (written : array.Proper)
    (begun : context.iterations array loopId scope = .ok iterations) :
    ∀ item ∈ iterations.map (·.item), item.Proper := by
  obtain ⟨items, base, found, rfl⟩ := iterations_ok begun
  rw [map_item_iterationsFrom]
  exact Value.proper_array_iff.mp (proper.arrayItems bound written found)

theorem proper_forecast : forecast.Proper := by
  constructor <;> simp [forecast, rainyDay, JobConfig.named, Value.ofNat]

end Context

end Newsreel
