import Newsreel.Context.Loop
import Newsreel.Proofs.Context.Locate

/-!
The iterations of a loop: which items they go through, and where `_loop` leads in each of them.
-/

namespace Newsreel

namespace Context

/-- Every iteration has a frame of its own, which knows the place of its item if there is one. -/
theorem valueFrame?_of_mem_iterationsFrom {loopId : String} {base : Option String} {scope : Scope}
    {start : Nat} {items : List Value} {iteration : Iteration}
    (member : iteration ∈ iterationsFrom loopId base scope start items) :
    ∃ frame, iteration.scope.valueFrame? = some frame ∧ frame.value = some iteration.item ∧
      frame.itemPath = base.map fun path => path ++ "." ++ Text.natural iteration.index := by
  induction items generalizing start with
  | nil => simp [iterationsFrom] at member
  | cons item rest ih =>
    rw [iterationsFrom, List.mem_cons] at member
    rcases member with rfl | later
    · exact ⟨_, rfl, rfl, rfl⟩
    · exact ih later

/-- In an iteration over data `_loop` leads to the item. -/
theorem atPlace_of_mem_iterationsFrom {segments : List String} {loopId : String} {scope : Scope}
    {start : Nat} {items : List Value} {iteration : Iteration} (absolute : Path.Absolute segments)
    (member : iteration ∈ iterationsFrom loopId (some (Path.join segments)) scope start items) :
    iteration.scope.AtPlace (segments ++ [Text.natural iteration.index]) := by
  have placed := absolute.append (Path.plain_natural iteration.index)
  have closed := Path.closed_natural segments iteration.index
  obtain ⟨frame, found, -, itemPath⟩ := valueFrame?_of_mem_iterationsFrom member
  refine ⟨placed, frame, _, found, ?_, Path.split_join placed.settled closed⟩
  rw [itemPath, Path.join_item absolute.ne_nil]
  rfl

theorem iterations_ok {context : Context} {array : Value} {loopId : String} {scope : Scope}
    {iterations : List Iteration} (begun : context.iterations array loopId scope = .ok iterations) :
    ∃ items base, context.arrayItems array scope = .ok (.array items, base) ∧
      iterations = iterationsFrom loopId base scope 0 items := by
  rw [Context.iterations] at begun
  cases given : context.arrayItems array scope with
  | error error =>
    rw [given] at begun
    cases begun
  | ok pair =>
    obtain ⟨value, base⟩ := pair
    rw [given] at begun
    cases value with
    | array items =>
      cases begun
      exact ⟨items, base, rfl, rfl⟩
    | _ => cases begun

theorem arrayItems_data {context : Context} {spec : String} {scope : Scope}
    {segments : List String}
    (located : context.locate (Template.stripBraces spec) scope = .ok (.data segments)) :
    context.arrayItems (.string spec) scope =
      (context.get (Template.stripBraces spec) scope).map fun value =>
        (value, some (Path.join segments)) := by
  simp only [arrayItems, located]
  cases context.get (Template.stripBraces spec) scope <;> rfl

/-- An array in the data is iterated as it lies there. -/
theorem iterations_of_get {context : Context} {spec : String} {scope : Scope}
    {segments : List String} {items : List Value}
    (located : context.locate (Template.stripBraces spec) scope = .ok (.data segments))
    (read : context.get (Template.stripBraces spec) scope = .ok (.array items)) (loopId : String) :
    context.iterations (.string spec) loopId scope =
      .ok (iterationsFrom loopId (some (Path.join segments)) scope 0 items) := by
  rw [iterations, arrayItems_data located, read]
  rfl

/-- Iterations over data know the path of the array. -/
theorem iterations_data {context : Context} {spec loopId : String} {scope : Scope}
    {segments : List String} {iterations : List Iteration}
    (located : context.locate (Template.stripBraces spec) scope = .ok (.data segments))
    (begun : context.iterations (.string spec) loopId scope = .ok iterations) :
    ∃ items, iterations = iterationsFrom loopId (some (Path.join segments)) scope 0 items := by
  obtain ⟨items, base, given, rfl⟩ := iterations_ok begun
  rw [arrayItems_data located] at given
  cases read : context.get (Template.stripBraces spec) scope with
  | error error =>
    rw [read] at given
    cases given
  | ok value =>
    rw [read] at given
    cases given
    exact ⟨items, rfl⟩

end Context

end Newsreel
