import Newsreel.Proofs.Run.Invariant

/-!
Names that stay reserved.

A path whose head is reserved is never taken into the data, however the head comes about: written out,
through a key, or through the place of an item. So nothing that is done in the course of a run gives
the data a field of such a name, and a field of the data can be read under its own name forever.
-/

namespace Newsreel

/-- An object without fields of reserved names. -/
def Value.Unreserved (data : Value) : Prop :=
  ∃ fields, data = .object fields ∧ ∀ name ∈ reservedHeads, Fields.find? name fields = none

namespace Value

variable {data : Value}

/-- A write whose path begins with another name keeps the names free. -/
theorem Unreserved.put (unreserved : data.Unreserved) {head : String} (free : head ∉ reservedHeads)
    (path : String) (new : Value) (rest : List String) :
    (Value.put path new (head :: rest) data).2.Unreserved := by
  obtain ⟨fields, rfl, unbound⟩ := unreserved
  rw [put_object]
  refine ⟨_, rfl, fun name reserved => ?_⟩
  have apart : head ≠ name := by
    rintro rfl
    exact free reserved
  rw [Fields.find?_insert_of_ne apart, unbound name reserved]

end Value

namespace Context

variable {context : Context}

/-- A write keeps the names free whatever its path is, and whether it succeeds or not. -/
theorem insert_unreserved (unreserved : context.data.Unreserved) (path : String) (value : Value)
    (scope : Scope) : (context.insert path value scope).2.data.Unreserved := by
  by_cases inData : ∃ segments, context.locate path scope = .ok (.data segments)
  · obtain ⟨segments, located⟩ := inData
    obtain ⟨head, rest, rfl, free⟩ := (locate_data located).free
    rw [insert_data located]
    exact unreserved.put free path value rest
  · obtain ⟨error, refused⟩ := insert_elsewhere (not_exists.mp inData) value
    rw [refused]
    exact unreserved

/-- A value whose top level binds no reserved name; what is no object binds nothing. -/
def Seeds (seed : Value) : Prop :=
  ∀ fields, seed = .object fields → ∀ name ∈ reservedHeads, Fields.find? name fields = none

theorem withData_unreserved {seed : Value} (seeds : Seeds seed)
    (unreserved : context.data.Unreserved) : (context.withData seed).data.Unreserved := by
  cases seed with
  | object fields => exact ⟨fields, rfl, seeds fields rfl⟩
  | _ => exact unreserved

theorem start_unreserved (config : JobConfig) (runId : String) :
    (start config runId).data.Unreserved :=
  ⟨[], rfl, fun _ _ => rfl⟩

/-- What is done to a context: something is written, or a step is run on whatever world it finds. The
scope may be that of any loop, of any key, or made up. -/
inductive Deed where
  | write (path : String) (value : Value) (scope : Scope)
  | step (action : Action) (surroundings : Surroundings) (scope : Scope) (world : World)

/-- What a deed leaves of a context, successful or not. -/
def after (context : Context) : Deed → Context
  | .write path value scope => (context.insert path value scope).2
  | .step action surroundings scope world =>
    (action.run surroundings scope (context, world)).2.1

theorem after_unreserved (unreserved : context.data.Unreserved) (deed : Deed) :
    (context.after deed).data.Unreserved := by
  cases deed with
  | write path value scope => exact insert_unreserved unreserved path value scope
  | step action surroundings scope world =>
    have stable : Edit.Stable fun context => context.data.Unreserved := {
      writes := fun path value scope context holds => insert_unreserved holds path value scope
      draws := fun context holds => holds }
    -- Fetches and sequences only read the context; the write that follows them is one of `stable`.
    have keeps : (action.run surroundings scope).Preserves
        fun state => state.1.data.Unreserved :=
      Action.run_preserves (fun _ => stable) (fun _ _ _ _ holds => holds)
        (fun _ _ _ _ holds => holds) action scope
    exact keeps (context, world) unreserved

/-- Whatever is done to a context that begins without reserved names, its data is an object and binds
none of them. -/
theorem reserved_stay_free {seed : Value} (seeds : Seeds seed) (config : JobConfig)
    (runId : String) (deeds : List Deed) :
    (deeds.foldl after ((start config runId).withData seed)).data.Unreserved := by
  have begun := withData_unreserved seeds (start_unreserved config runId)
  generalize (start config runId).withData seed = context at begun ⊢
  induction deeds generalizing context with
  | nil => exact begun
  | cons deed rest ih => exact ih _ (after_unreserved begun deed)

/-- A key that stands for a reserved name, and an item said to lie at one. -/
def crooked : Scope :=
  (Scope.root.child ⟨"days", 0, some .null, none, some "_key.city"⟩).child
    ⟨"keys", 0, none, some "_conf", none⟩

/-- Two writes through the names, and a step that fails behind a first write. -/
def crookedDeeds : List Deed :=
  [.write "_key.city" (.string "fog") crooked, .write "_loop" (.string "fog") crooked,
    .step (.transform Action.writeSky) Action.offline crooked {}]

theorem reserved_stay_free_crooked :
    Seeds forecast.data ∧
      (crookedDeeds.foldl after ((start forecast.config forecast.runId).withData
        forecast.data)).data.Unreserved := by
  have seeds : Seeds forecast.data := by
    rintro fields ⟨⟩
    decide
  exact ⟨seeds, reserved_stay_free seeds forecast.config forecast.runId crookedDeeds⟩

end Context

end Newsreel
