import Newsreel.Proofs.Context.Loop
import Newsreel.Proofs.Context.ReadWrite

/-!
What `_loop` stands for inside loops.

A loop over data keeps the place of each item as a text, which is cut, trimmed and looked up again
whenever `_loop` is used. Inside any nest of such loops that is the same as using the place itself
from outside of all loops, at every time: the data may have changed since the loops began. Where the
innermost array lies outside the data there is no place, and nothing can be written through `_loop`.
-/

namespace Newsreel

/-- Scopes inside loops over arrays at paths into the data. The levels say, innermost first, where
each array lies and which of its items is at hand. The scope around all of them is any scope, the
data may change from one loop to the next, and between the loops there may be frames that bind no
value, such as those for keys. -/
inductive Nest (start : Scope) : List (List String × Nat) → Scope → Prop where
  | outermost : Nest start [] start
  | framed {levels : List (List String × Nat)} {scope : Scope} {frame : Frame}
      (around : Nest start levels scope) (unbound : frame.value = none) :
      Nest start levels (scope.child frame)
  | looped {levels : List (List String × Nat)} {scope : Scope} {context : Context}
      {spec loopId : String} {segments : List String} {iterations : List Iteration}
      {iteration : Iteration} (around : Nest start levels scope)
      (located : context.locate (Template.stripBraces spec) scope = .ok (.data segments))
      (begun : context.iterations (.string spec) loopId scope = .ok iterations)
      (member : iteration ∈ iterations) :
      Nest start ((segments, iteration.index) :: levels) iteration.scope

/-- An array that does not lie in the data: it is written out, or a path leads to it that ends at
another value, as one into the configuration does. -/
def Context.ArrayOutside (context : Context) (array : Value) (scope : Scope) : Prop :=
  (∃ items, array = .array items) ∨
    ∃ spec value rest, array = .string spec ∧
      context.locate (Template.stripBraces spec) scope = .ok (.detached value rest)

namespace Context

/-- Iterations over an array that does not lie in the data know no path. -/
theorem iterations_outside {context : Context} {array : Value} {loopId : String} {scope : Scope}
    {iterations : List Iteration} (outside : context.ArrayOutside array scope)
    (begun : context.iterations array loopId scope = .ok iterations) :
    ∃ items, iterations = iterationsFrom loopId none scope 0 items := by
  obtain ⟨items, base, given, rfl⟩ := iterations_ok begun
  rcases outside with ⟨written, rfl⟩ | ⟨spec, value, rest, rfl, located⟩
  · simp only [arrayItems] at given
    cases formatted : context.deepFormat none scope (.array written) with
    | error error =>
      rw [formatted] at given
      cases given
    | ok value =>
      rw [formatted] at given
      cases given
      exact ⟨items, rfl⟩
  · simp only [arrayItems, located] at given
    cases read : context.get (Template.stripBraces spec) scope with
    | error error =>
      rw [read] at given
      cases given
    | ok value =>
      rw [read] at given
      cases given
      exact ⟨items, rfl⟩

end Context

theorem Path.split_below_loop (suffix : String) :
    Path.split (Path.below "_loop" suffix) = match Path.suffix? suffix with
      | some rest => .ok ("_loop" :: rest)
      | none => .error (.invalidValue (Path.below "_loop" suffix) .emptySegment) := by
  have settled := Path.split_settled (rfl : Path.split "_loop" = .ok ["_loop"])
  exact Path.split_below settled ⟨[], ['_', 'l', 'o', 'o'], 'p', rfl, rfl⟩ suffix

namespace Nest

open Context

/-- Inside the nest `_loop` leads to the innermost item. -/
theorem atPlace {start scope : Scope} {levels : List (List String × Nat)} {segments : List String}
    {index : Nat} (nest : Nest start ((segments, index) :: levels) scope) :
    scope.AtPlace (segments ++ [Text.natural index]) := by
  generalize inner : (segments, index) :: levels = all at nest
  induction nest with
  | outermost => cases inner
  | framed around unbound ih => exact (ih inner).child unbound
  | looped around located begun member ih =>
    cases inner
    obtain ⟨items, rfl⟩ := iterations_data located begun
    exact atPlace_of_mem_iterationsFrom (locate_data located) member

/-- Below `_loop` lies what lies below the place of the innermost item, and where a suffix makes no
path both fail. -/
theorem locate_below {start scope : Scope} {levels : List (List String × Nat)}
    {segments : List String} {index : Nat} (nest : Nest start ((segments, index) :: levels) scope)
    (suffix : String) :
    let place := segments ++ [Text.natural index]
    (∃ rest, ∀ live : Context,
      live.locate (Path.below "_loop" suffix) scope = .ok (.data (place ++ rest)) ∧
      live.locate (Path.below (Path.join place) suffix) Scope.root = .ok (.data (place ++ rest))) ∨
    (∃ first second, ∀ live : Context,
      live.locate (Path.below "_loop" suffix) scope = .error first ∧
      live.locate (Path.below (Path.join place) suffix) Scope.root = .error second) := by
  intro place
  have here : scope.AtPlace place := nest.atPlace
  have placed := here.absolute
  have closed : Path.Closed place := Path.closed_natural segments index
  have aliasSplit := Path.split_below_loop suffix
  have placeSplit := Path.split_below placed.settled closed suffix
  cases read : Path.suffix? suffix with
  | none =>
    rw [read] at aliasSplit placeSplit
    exact Or.inr ⟨_, _, fun live => ⟨locate_of_split_error aliasSplit live scope,
      locate_of_split_error placeSplit live Scope.root⟩⟩
  | some rest =>
    rw [read] at aliasSplit placeSplit
    have plain := Path.plain_of_suffix? read
    refine Or.inl ⟨rest, fun live => ⟨?_, ?_⟩⟩
    · rw [locate_of_split aliasSplit]
      exact locateWithin_loop here live _ plain 15
    · rw [locate_of_split placeSplit]
      exact locateWithin_absolute (placed.append plain) live _ Scope.root 16

end Nest

namespace Context

/-- Nothing can be written through `_loop` while it is bound to an array outside the data. -/
theorem insert_loop_outside {context : Context} {array : Value} {loopId : String} {scope : Scope}
    {iterations : List Iteration} {iteration : Iteration}
    (outside : context.ArrayOutside array scope)
    (begun : context.iterations array loopId scope = .ok iterations)
    (member : iteration ∈ iterations) (live : Context) (suffix : String) (value : Value) :
    ∃ error, live.insert (Path.below "_loop" suffix) value iteration.scope = (.error error, live) := by
  obtain ⟨items, rfl⟩ := iterations_outside outside begun
  obtain ⟨frame, found, bound, noPath⟩ := valueFrame?_of_mem_iterationsFrom member
  have aliasSplit := Path.split_below_loop suffix
  refine insert_elsewhere (fun segments located => ?_) value
  cases read : Path.suffix? suffix with
  | none =>
    rw [read] at aliasSplit
    rw [locate_of_split_error aliasSplit] at located
    cases located
  | some rest =>
    rw [read] at aliasSplit
    rw [locate_of_split aliasSplit] at located
    simp [locateWithin, expand, found, noPath, bound] at located

/-- Two paths, each in a scope of its own, lead at every time to the same value to read and to the
same place to write. -/
structure SameAccess (path : String) (scope : Scope) (other : String) (otherScope : Scope) :
    Prop where
  read : ∀ live : Context, (live.get path scope).toOption = (live.get other otherScope).toOption
  succeeds : ∀ (live : Context) (value : Value),
    (live.insert path value scope).1.isOk = (live.insert other value otherScope).1.isOk
  leaves : ∀ (live : Context) (value : Value),
    (live.insert path value scope).2 = (live.insert other value otherScope).2

theorem sameAccess_of_data {path other : String} {scope otherScope : Scope}
    {segments : List String}
    (located : ∀ live : Context, live.locate path scope = .ok (.data segments))
    (locatedOther : ∀ live : Context, live.locate other otherScope = .ok (.data segments)) :
    SameAccess path scope other otherScope where
  read live := by
    rw [get_data (located live), get_data (locatedOther live)]
    split <;> rfl
  succeeds live value := by
    rw [insert_data (located live), insert_data (locatedOther live)]
    exact (Value.put_path _ _ _ _ _).1
  leaves live value := by
    rw [insert_data (located live), insert_data (locatedOther live), (Value.put_path _ _ _ _ _).2]

theorem sameAccess_of_error {path other : String} {scope otherScope : Scope}
    {first second : StepError}
    (failed : ∀ live : Context, live.locate path scope = .error first)
    (failedOther : ∀ live : Context, live.locate other otherScope = .error second) :
    SameAccess path scope other otherScope where
  read live := by
    rw [get, get, failed, failedOther]
    rfl
  succeeds live value := by
    rw [insert, insert, failed, failedOther]
    rfl
  leaves live value := by
    rw [insert, insert, failed, failedOther]

/-- In a nest of loops over data reading and writing below `_loop` is reading and writing below the
place of the innermost item, at any time after the loops began; where the innermost array lies
outside the data, every write below `_loop` fails and changes nothing. -/
theorem loop_alias_exact {start scope : Scope} {levels : List (List String × Nat)}
    (nest : Nest start levels scope) :
    (∀ segments index outer, levels = (segments, index) :: outer → ∀ suffix : String,
      SameAccess (Path.below "_loop" suffix) scope
        (Path.below (Path.join (segments ++ [Text.natural index])) suffix) Scope.root) ∧
    (∀ (context : Context) (array : Value) (loopId : String) (iterations : List Iteration),
      context.ArrayOutside array scope → context.iterations array loopId scope = .ok iterations →
      ∀ iteration ∈ iterations, ∀ (live : Context) (suffix : String) (value : Value),
        ∃ error, live.insert (Path.below "_loop" suffix) value iteration.scope =
          (.error error, live)) := by
  constructor
  · rintro segments index outer rfl suffix
    rcases nest.locate_below suffix with
      ⟨rest, located⟩ | ⟨first, second, failed⟩
    · exact sameAccess_of_data (fun live => (located live).1) (fun live => (located live).2)
    · exact sameAccess_of_error (fun live => (failed live).1) (fun live => (failed live).2)
  · intro context array loopId iterations outside begun iteration member live suffix value
    exact insert_loop_outside outside begun member live suffix value

/-- A loop over the days and, at the second day, one over its hours. -/
theorem nest_hours : ∃ scope, Nest Scope.root [(["days", "1", "hours"], 0), (["days"], 1)] scope := by
  have days := iterations_of_get locate_days (by rw [get_data locate_days]; rfl) "loop"
  have atSecond : Nest Scope.root [(["days"], 1)] secondDay :=
    .looped .outermost locate_days days (.tail _ (.head _))
  have read : Path.split (Template.stripBraces "_loop.hours") = .ok ["_loop", "hours"] := rfl
  have located : forecast.locate (Template.stripBraces "_loop.hours") secondDay =
      .ok (.data ["days", "1", "hours"]) := by
    rw [locate_of_split read]
    exact locateWithin_loop atPlace_secondDay forecast _ (Path.split_settled read).plain_tail 15
  have hours := iterations_of_get located (by rw [get_data located]; rfl) "hours"
  exact ⟨_, .looped atSecond located hours (.head _)⟩

/-- At the first hour of the second day `_loop` is that hour, and while a loop runs over an array
that is written out nothing is written through it. -/
theorem loop_alias_exact_forecast :
    (∃ scope, Nest Scope.root [(["days", "1", "hours"], 0), (["days"], 1)] scope ∧
      SameAccess "_loop" scope "days.1.hours.0" Scope.root) ∧
    (∃ iteration, forecast.iterations (.array [.null]) "loop" Scope.root = .ok [iteration] ∧
      ∀ (live : Context) (value : Value), ∃ error,
        live.insert "_loop" value iteration.scope = (.error error, live)) := by
  constructor
  · obtain ⟨scope, nest⟩ := nest_hours
    exact ⟨scope, nest, (loop_alias_exact nest).1 _ _ _ rfl ""⟩
  · exact ⟨_, rfl, fun live value => (loop_alias_exact .outermost).2 forecast (.array [.null]) "loop"
      _ (Or.inl ⟨_, rfl⟩) rfl _ (.head _) live "" value⟩

end Context

end Newsreel
