import Newsreel.Fault
import Newsreel.Text.Blank
import Newsreel.Text.Search

/-!
Paths into values: segments joined by points. A segment names a field of an object, or, written in
digits, an item of an array.
-/

namespace Newsreel

namespace Path

/-- The segments of a path; none may be empty. White space around the path does not count. -/
def split (path : String) : Except StepError (List String) :=
  let segments := (Text.splitChars '.' (Text.trimChars path.toList)).map String.ofList
  if segments.any (· = "") then .error (.invalidValue path .emptySegment) else .ok segments

/-- The path with the given segments. -/
def join (segments : List String) : String := String.intercalate "." segments

end Path

namespace Value

/-- What lies at a path below a value. -/
def at? : List String → Value → Option Value
  | [], value => some value
  | segment :: rest, .object fields => (Fields.find? segment fields).bind (at? rest)
  | segment :: rest, .array items =>
    (Text.count? segment).bind fun i => items[i]?.bind (at? rest)
  | _ :: _, _ => none

/-- Null is an empty object as soon as something is to be written below it. -/
def opened : Value → Value
  | .null => .object []
  | value => value

/-- Writes a value at a path below another one, in place: how that ends, and what has become of the
other value. Objects take any field, and missing ones on the way are made before the walk goes on. An
array takes the items that it has and one more at its end. `path` names the whole path in a fault. -/
def put (path : String) (new : Value) : List String → Value → Except StepError Unit × Value
  | [], _ => (.ok (), new)
  | segment :: rest, value => match value.opened with
    | .object fields =>
      let child := put path new rest ((Fields.find? segment fields).getD (.object []))
      (child.1, .object (Fields.insert segment child.2 fields))
    | .array items => match Text.count? segment with
      | none => (.error (.invalidValue path .notAnIndex), .array items)
      | some i => match items[i]? with
        | some item =>
          let child := put path new rest item
          (child.1, .array (items.set i child.2))
        | none =>
          if rest = [] ∧ i = items.length then (.ok (), .array (items ++ [new]))
          else (.error (.unresolved path), .array items)
    | scalar =>
      let fault := if rest = [] then .scalarAtTheEnd segment else .scalarOnTheWay segment
      (.error (.invalidValue path fault), scalar)

end Value

end Newsreel
