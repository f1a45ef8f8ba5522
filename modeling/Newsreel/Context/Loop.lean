import Newsreel.Context.Format

/-!
Loops over arrays. An array is given as a path, with or without braces, or written out. Where it
lies in the data, each iteration knows the path of its item, so that what is written through `_loop`
changes the data.
-/

namespace Newsreel

/-- One iteration: the item and the scope that binds it. -/
structure Iteration where
  index : Nat
  item : Value
  scope : Scope

namespace Context

/-- The items of an array and, if they lie in the data, the path of the array. -/
def arrayItems (context : Context) (array : Value) (scope : Scope) :
    Except StepError (Value × Option String) := do
  match array with
  | .string spec =>
    let path := Template.stripBraces spec
    let base := match ← context.locate path scope with
      | .data segments => some (Path.join segments)
      | _ => none
    return (← context.get path scope, base)
  | .array items => return (← context.deepFormat none scope (.array items), none)
  | other => .error (.invalidValue (Json.compact other) .noArray)

/-- The array in the words of a complaint. -/
def arrayLabel : Value → String
  | .string spec => spec
  | _ => "<literal>"

/-- The scope in which an item is bound. -/
def itemScope (loopId : String) (base : Option String) (scope : Scope) (index : Nat)
    (item : Value) : Scope :=
  scope.child {
    loopId, index
    value := some item
    itemPath := base.map fun path => path ++ "." ++ Text.natural index }

/-- The iterations over the items from the given index on. -/
def iterationsFrom (loopId : String) (base : Option String) (scope : Scope) :
    (index : Nat) → List Value → List Iteration
  | _, [] => []
  | index, item :: items =>
    ⟨index, item, itemScope loopId base scope index item⟩
      :: iterationsFrom loopId base scope (index + 1) items

/-- The iterations over an array. -/
def iterations (context : Context) (array : Value) (loopId : String) (scope : Scope) :
    Except StepError (List Iteration) := do
  match ← context.arrayItems array scope with
  | (.array items, base) => return iterationsFrom loopId base scope 0 items
  | (other, _) => .error (.invalidValue (arrayLabel array) (.notAnArray other.kindText))

end Context

end Newsreel
