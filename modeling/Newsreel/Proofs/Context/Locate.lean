import Newsreel.Context.Basic
import Newsreel.Proofs.Text.Segments
import Newsreel.Proofs.Value.ReadWrite

/-!
Where paths lead.

The search for a location never looks at the data, so whatever has been written in the meantime a
path leads to the same place. A place in the data has a head that is not reserved, and its segments
are settled: written down as a text, they lead there from every scope.
-/

namespace Newsreel

/-- The heads of paths that do not lead into the data. -/
def reservedHeads : List String := ["_idx", "_key", "_loop", "_conf", "_run_id"]

/-- Segments that stand for themselves in every scope. -/
structure Path.Absolute (segments : List String) : Prop where
  settled : Path.Settled segments
  free : ∃ head rest, segments = head :: rest ∧ head ∉ reservedHeads

theorem Path.Absolute.ne_nil {segments : List String} (absolute : Path.Absolute segments) :
    segments ≠ [] := absolute.settled.ne_nil

theorem Path.absolute_of_split {path head : String} {rest : List String}
    (read : Path.split path = .ok (head :: rest)) (free : head ∉ reservedHeads) :
    Path.Absolute (head :: rest) :=
  ⟨Path.split_settled read, head, rest, rfl, free⟩

theorem Path.Absolute.append {segments rest : List String} (absolute : Path.Absolute segments)
    (plain : Path.Plain rest) : Path.Absolute (segments ++ rest) := by
  refine ⟨absolute.settled.append plain, ?_⟩
  obtain ⟨head, tail, rfl, free⟩ := absolute.free
  exact ⟨head, tail ++ rest, rfl, free⟩

/-- `_loop` leads to a place in the data. -/
structure Scope.AtPlace (scope : Scope) (place : List String) : Prop where
  absolute : Path.Absolute place
  bound : ∃ frame itemPath, scope.valueFrame? = some frame ∧ frame.itemPath = some itemPath ∧
    Path.split itemPath = .ok place

/-- A frame that binds no value leaves `_loop` as it is. -/
theorem Scope.AtPlace.child {scope : Scope} {place : List String} (here : scope.AtPlace place)
    {frame : Frame} (unbound : frame.value = none) : (scope.child frame).AtPlace place := by
  obtain ⟨around, itemPath, bound, inData, read⟩ := here.bound
  refine ⟨here.absolute, around, itemPath, ?_, inData, read⟩
  rw [← bound]
  simp [valueFrame?, frames, Scope.child, unbound]

namespace Context

/-- A head that is not reserved names a field of the data. -/
theorem expand_free (context : Context) (path : String) (scope : Scope) {head : String}
    (free : head ∉ reservedHeads) (rest : List String) :
    context.expand path scope (head :: rest) = .found (.data (head :: rest)) := by
  simp only [reservedHeads, List.mem_cons, List.not_mem_nil, or_false, not_or] at free
  obtain ⟨notIndex, notKey, notLoop, notConf, notRun⟩ := free
  unfold expand
  split <;> simp_all

/-- A reserved head leads nowhere, to a value outside the data, or on to what it stands for. -/
theorem expand_reserved {head : String} (reserved : head ∈ reservedHeads) (context : Context)
    (path : String) (scope : Scope) (rest : List String) :
    (∃ error, context.expand path scope (head :: rest) = .failed error) ∨
    (∃ location, context.expand path scope (head :: rest) = .found location ∧
      ∀ segments, location ≠ .data segments) ∨
    ∃ target, context.expand path scope (head :: rest) = replaceHead target rest := by
  simp only [reservedHeads, List.mem_cons, List.not_mem_nil, or_false] at reserved
  rcases reserved with rfl | rfl | rfl | rfl | rfl
  · cases rest with
    | nil =>
      cases bound : scope.index? with
      | none => exact Or.inl ⟨.unresolved path, by simp only [expand, bound]⟩
      | some n => exact Or.inr (Or.inl ⟨.index n, by simp only [expand, bound], by simp⟩)
    | cons next more => exact Or.inl ⟨.unresolved path, by simp only [expand]⟩
  · cases bound : scope.key? with
    | none => exact Or.inl ⟨.unresolved path, by simp only [expand, bound]⟩
    | some key => exact Or.inr (Or.inr ⟨key, by simp only [expand, bound]⟩)
  · cases bound : scope.valueFrame? with
    | none => exact Or.inl ⟨.unresolved path, by simp only [expand, bound]⟩
    | some frame =>
      cases inData : frame.itemPath with
      | some itemPath => exact Or.inr (Or.inr ⟨itemPath, by simp only [expand, bound, inData]⟩)
      | none =>
        cases held : frame.value with
        | none => exact Or.inl ⟨.unresolved path, by simp only [expand, bound, inData, held]⟩
        | some value =>
          exact Or.inr (Or.inl ⟨.detached value rest, by simp only [expand, bound, inData, held],
            by simp⟩)
  · exact Or.inr (Or.inl ⟨.detached context.config.toValue rest, by simp only [expand], by simp⟩)
  · exact Or.inr (Or.inl ⟨.detached (.string context.runId) rest, by simp only [expand], by simp⟩)

/-- A search that ends in the data ends at the segments it has come to, whose head is free. -/
theorem expand_data {context : Context} {path : String} {scope : Scope} {head : String}
    {rest found : List String}
    (success : context.expand path scope (head :: rest) = .found (.data found)) :
    found = head :: rest ∧ head ∉ reservedHeads := by
  by_cases reserved : head ∈ reservedHeads
  · rcases expand_reserved reserved context path scope rest with
      ⟨error, failed⟩ | ⟨location, outside, notData⟩ | ⟨target, replaced⟩
    · rw [failed] at success
      cases success
    · rw [outside] at success
      cases success
      exact absurd rfl (notData found)
    · rw [replaced, replaceHead] at success
      split at success <;> cases success
  · rw [expand_free context path scope reserved] at success
    cases success
    exact ⟨rfl, reserved⟩

/-- What a reserved head is replaced by goes in front of the segments behind it. -/
theorem expand_replaced {context : Context} {path : String} {scope : Scope} {head : String}
    {rest next : List String}
    (success : context.expand path scope (head :: rest) = .replaced next) :
    ∃ target segments, Path.split target = .ok segments ∧ next = segments ++ rest := by
  by_cases reserved : head ∈ reservedHeads
  · rcases expand_reserved reserved context path scope rest with
      ⟨error, failed⟩ | ⟨location, outside, -⟩ | ⟨target, replaced⟩
    · rw [failed] at success
      cases success
    · rw [outside] at success
      cases success
    · rw [replaced, replaceHead] at success
      split at success
      · next segments read =>
        cases success
        exact ⟨target, segments, read, rfl⟩
      · cases success
  · rw [expand_free context path scope reserved] at success
    cases success

/-- A search that ends in the data ends at segments that stand for themselves. -/
theorem locateWithin_data {context : Context} {path : String} {scope : Scope} {steps : Nat}
    {segments found : List String} (settled : Path.Settled segments)
    (success : context.locateWithin path scope steps segments = .ok (.data found)) :
    Path.Absolute found := by
  induction steps generalizing segments with
  | zero => cases success
  | succ steps ih =>
    obtain ⟨head, rest, rfl⟩ := List.exists_cons_of_ne_nil settled.ne_nil
    rw [locateWithin] at success
    split at success
    · next location expanded =>
      cases success
      obtain ⟨rfl, free⟩ := expand_data expanded
      exact ⟨settled, head, rest, rfl, free⟩
    · cases success
    · next next expanded =>
      obtain ⟨target, front, read, rfl⟩ := expand_replaced expanded
      exact ih ((Path.split_settled read).append settled.plain_tail) success

theorem locate_of_split {path : String} {segments : List String}
    (read : Path.split path = .ok segments) (context : Context) (scope : Scope) :
    context.locate path scope = context.locateWithin path scope (aliasLimit + 1) segments := by
  rw [locate, read]
  rfl

theorem locate_of_split_error {path : String} {error : StepError}
    (unread : Path.split path = .error error) (context : Context) (scope : Scope) :
    context.locate path scope = .error error := by
  rw [locate, unread]
  rfl

theorem locate_data {context : Context} {path : String} {scope : Scope} {segments : List String}
    (success : context.locate path scope = .ok (.data segments)) : Path.Absolute segments := by
  cases read : Path.split path with
  | error error =>
    rw [locate_of_split_error read] at success
    cases success
  | ok parts =>
    rw [locate_of_split read] at success
    exact locateWithin_data (Path.split_settled read) success

/-- Segments that stand for themselves are found at once. -/
theorem locateWithin_absolute {segments : List String} (absolute : Path.Absolute segments)
    (context : Context) (path : String) (scope : Scope) (steps : Nat) :
    context.locateWithin path scope (steps + 1) segments = .ok (.data segments) := by
  obtain ⟨head, rest, rfl, free⟩ := absolute.free
  rw [locateWithin, expand_free context path scope free]

/-- In a loop over data `_loop` leads below the place of the item. -/
theorem locateWithin_loop {scope : Scope} {place : List String} (here : scope.AtPlace place)
    (context : Context) (path : String) {rest : List String} (plain : Path.Plain rest)
    (steps : Nat) :
    context.locateWithin path scope (steps + 2) ("_loop" :: rest) =
      .ok (.data (place ++ rest)) := by
  obtain ⟨frame, itemPath, bound, inData, read⟩ := here.bound
  have expanded : context.expand path scope ("_loop" :: rest) = .replaced (place ++ rest) := by
    simp only [expand, bound, inData, replaceHead, read]
  rw [locateWithin, expanded]
  exact locateWithin_absolute (here.absolute.append plain) context path scope steps

/-! Nothing but the configuration and the id of the run has a say in where a path leads. -/

theorem expand_congr {first second : Context} (config : first.config = second.config)
    (runId : first.runId = second.runId) (path : String) (scope : Scope) (segments : List String) :
    first.expand path scope segments = second.expand path scope segments := by
  unfold expand
  rw [config, runId]

theorem locateWithin_congr {first second : Context} (config : first.config = second.config)
    (runId : first.runId = second.runId) (path : String) (scope : Scope) (steps : Nat)
    (segments : List String) :
    first.locateWithin path scope steps segments = second.locateWithin path scope steps segments := by
  induction steps generalizing segments with
  | zero => rfl
  | succ steps ih =>
    rw [locateWithin, locateWithin, expand_congr config runId]
    split
    · rfl
    · rfl
    · exact ih _

theorem locate_congr {first second : Context} (config : first.config = second.config)
    (runId : first.runId = second.runId) (path : String) (scope : Scope) :
    first.locate path scope = second.locate path scope := by
  cases read : Path.split path with
  | error error => rw [locate_of_split_error read, locate_of_split_error read]
  | ok segments =>
    rw [locate_of_split read, locate_of_split read]
    exact locateWithin_congr config runId path scope _ segments

/-! What a write does, by the place where its path leads. -/

theorem insert_data {context : Context} {path : String} {scope : Scope} {segments : List String}
    (located : context.locate path scope = .ok (.data segments)) (value : Value) :
    context.insert path value scope =
      ((Value.put path value segments context.data).1,
        { context with data := (Value.put path value segments context.data).2 }) := by
  rw [insert, located]
  cases segments with
  | nil => exact absurd rfl (locate_data located).ne_nil
  | cons head rest => rfl

/-- A write that does not lead into the data is refused. -/
theorem insert_elsewhere {context : Context} {path : String} {scope : Scope}
    (elsewhere : ∀ segments, context.locate path scope ≠ .ok (.data segments)) (value : Value) :
    ∃ error, context.insert path value scope = (.error error, context) := by
  rw [insert]
  cases located : context.locate path scope with
  | error error => exact ⟨error, rfl⟩
  | ok location =>
    cases location with
    | data segments => exact absurd located (elsewhere segments)
    | detached value rest => exact ⟨_, rfl⟩
    | index n => exact ⟨_, rfl⟩

theorem insert_frame (context : Context) (path : String) (value : Value) (scope : Scope) :
    (context.insert path value scope).2.config = context.config ∧
      (context.insert path value scope).2.runId = context.runId := by
  rw [insert]
  split <;> exact ⟨rfl, rfl⟩

theorem get_data {context : Context} {path : String} {scope : Scope} {segments : List String}
    (located : context.locate path scope = .ok (.data segments)) :
    context.get path scope = match context.data.at? segments with
      | some value => .ok value
      | none => .error (.unresolved path) := by
  rw [get, located]
  rfl

/-- A write that fails leaves the whole context as it was. -/
theorem insert_error {context : Context} {path : String} {value : Value} {scope : Scope}
    {error : StepError} (failure : (context.insert path value scope).1 = .error error) :
    (context.insert path value scope).2 = context := by
  by_cases inData : ∃ segments, context.locate path scope = .ok (.data segments)
  · obtain ⟨segments, located⟩ := inData
    rw [insert_data located] at failure ⊢
    rw [Value.put_error failure]
  · obtain ⟨_, refused⟩ := insert_elsewhere (not_exists.mp inData) value
    rw [refused]

end Context

end Newsreel
