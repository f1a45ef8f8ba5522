import Newsreel.Value

/-!
Loop scopes: what `_loop`, `_idx` and `_key` are bound to while a step walks an array or its keys.

A scope is a chain of frames, the innermost first. A frame may bind a value, a key, both or neither;
each binding is looked up in the innermost frame that has it, so a frame that binds only a key hides
no value around it. The index alone is always that of the innermost frame.
-/

namespace Newsreel

/-- One frame of a scope. -/
structure Frame where
  /-- The loop that opened the frame: a type name, or the name of the array. -/
  loopId : String
  index : Nat := 0
  /-- What `_loop` is bound to. -/
  value : Option Value := none
  /-- The path that `_key` is bound to. -/
  key : Option String := none
  /-- Where the value lies in the data, if it lies there. -/
  itemPath : Option String := none

/-- The frame as it is reported. -/
def Frame.toValue (frame : Frame) : Value :=
  .object [("loop_id", .string frame.loopId), ("index", .ofNat frame.index),
    ("value", .ofOption id frame.value), ("has_value", .bool frame.value.isSome),
    ("key", .ofOption .string frame.key), ("item_path", .ofOption .string frame.itemPath)]

/-- A frame of its own, if any, inside the frames of the scopes around it. -/
structure Scope where
  own : Option Frame := none
  outer : List Frame := []

namespace Scope

/-- The scope of a run, without bindings. -/
def root : Scope := {}

/-- The frames from the innermost to the outermost. -/
def frames (scope : Scope) : List Frame := scope.own.toList ++ scope.outer

/-- A scope inside another one. -/
def child (scope : Scope) (frame : Frame) : Scope := ⟨some frame, scope.frames⟩

def depth (scope : Scope) : Nat := scope.frames.length

/-- The index of the innermost frame. -/
def index? (scope : Scope) : Option Nat := scope.frames.head?.map (·.index)

/-- The innermost frame that binds a value. -/
def valueFrame? (scope : Scope) : Option Frame := scope.frames.find? (·.value.isSome)

/-- The innermost key. -/
def key? (scope : Scope) : Option String := scope.frames.findSome? (·.key)

/-- Binds an index and a value in the scope's own frame; the value lies nowhere in the data. -/
def saveValue (scope : Scope) (index : Nat) (value : Value) : Scope :=
  let frame := scope.own.getD ⟨"loop", 0, none, none, none⟩
  { scope with own := some { frame with index, value := some value, itemPath := none } }

/-- Binds an index and a key in the scope's own frame. -/
def saveKey (scope : Scope) (index : Nat) (key : String) : Scope :=
  let frame := scope.own.getD ⟨"keys", 0, none, none, none⟩
  { scope with own := some { frame with index, key := some key } }

end Scope

end Newsreel
