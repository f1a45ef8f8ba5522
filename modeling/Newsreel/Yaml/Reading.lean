import Newsreel.Yaml.Meaning

/-!
Documents read for what is asked for.

Where a text is asked for, every scalar gives its own; where a mapping or a sequence is asked for,
nothing written at all stands for an empty one. Collections may be nested 128 levels deep, and
aliases may be followed a hundred times as often as there are steps in the document.
-/

namespace Newsreel.Yaml

/-- Reading that counts the aliases that may still be followed. -/
abbrev Reading (α : Type) := StateT Nat (Except Fault) α

/-- How deeply collections may be nested. -/
def depthLimit : Nat := 128

/-- Whether keys of mappings have to be texts. -/
inductive KeyRule where
  /-- Every scalar stands for its text. -/
  | anyScalar
  /-- What has another meaning is no key. -/
  | textOnly
  deriving DecidableEq, Repr

namespace Tree

def fail (fault : Fault) : Reading α := fun _ => .error fault

def lift (outcome : Except Fault α) : Reading α := fun aliases => outcome.map fun a => (a, aliases)

/-- The node itself where an alias stands for it. -/
def follow (tree : Tree) : Node → Reading Node
  | .reference number => fun aliases => match aliases with
    | 0 => .error .tooManyAliases
    | aliases + 1 => match tree.anchored.find? fun entry => entry.1 = number with
      | some (_, node) => .ok (node, aliases)
      | none => .error .unknownAnchor
  | node => pure node

/-- The text of a scalar, whatever it stands for. -/
def text (tree : Tree) (node : Node) : Reading String := do
  match ← tree.follow node with
  | .scalar _ _ text => return text
  | _ => fail (.mismatch "a string")

/-- A truth value written plainly, or as a literal scalar that is tagged as one. -/
def flag (tree : Tree) (node : Node) : Reading Bool := do
  match ← tree.follow node with
  | .scalar tag style text =>
    let literal := style = .literal ∧ tag = some (commonTag "bool")
    match if style = .plain ∨ literal then truth? text else none with
    | some b => return b
    | none => fail (.mismatch "a boolean")
  | _ => fail (.mismatch "a boolean")

/-- Whether a scalar stands for nothing. -/
def isNothing (tag : Option String) (style : ScalarStyle) (text : String) : Except Fault Bool :=
  if style ≠ .plain then .ok false
  else match tag with
    | none => .ok (text.isEmpty || isNull text)
    | some tag =>
      if tag ≠ commonTag "null" then .ok false
      else if isNull text then .ok true
      else .error (.mismatch "null")

/-- A text or nothing. -/
def optionalText (tree : Tree) (node : Node) : Reading (Option String) := do
  match ← tree.follow node with
  | .scalar tag style text =>
    if ← lift (isNothing tag style text) then return none else return some text
  | _ => fail (.mismatch "a string")

/-- A scalar of which nothing is written. -/
def isUnwritten (style : ScalarStyle) (text : String) : Bool :=
  decide (style = .plain) && text.isEmpty

/-- The items of a sequence and the levels that are left for them. -/
def items (tree : Tree) (depth : Nat) (node : Node) : Reading (Nat × List Node) := do
  match ← tree.follow node, depth with
  | .sequence _ items, depth + 1 => return (depth, items)
  | .sequence _ _, 0 => fail .tooDeep
  | .scalar _ style text, _ =>
    if isUnwritten style text then return (depth, []) else fail (.mismatch "a sequence")
  | _, _ => fail (.mismatch "a sequence")

/-- The entries of a mapping by the texts of their keys, and the levels that are left for them. -/
def entries (tree : Tree) (depth : Nat) (node : Node) :
    Reading (Nat × List (String × Node)) := do
  match ← tree.follow node, depth with
  | .mapping _ entries, depth + 1 =>
    return (depth, ← entries.mapM fun (key, value) => do return (← tree.text key, value))
  | .mapping _ _, 0 => fail .tooDeep
  | .scalar _ style text, _ =>
    if isUnwritten style text then return (depth, []) else fail (.mismatch "a map")
  | _, _ => fail (.mismatch "a map")

/-- The key of an entry. -/
def key (tree : Tree) (rule : KeyRule) (node : Node) : Reading String := do
  match rule, ← tree.follow node with
  | .anyScalar, .scalar _ _ text => return text
  | .textOnly, .scalar tag style text => match ← lift (meaning tag style text) with
    | .string text => return text
    | _ => fail (.mismatch "a string key")
  | _, _ => fail (.mismatch "a string key")

/-- The fields of an object, of a key that comes up again the last value. -/
def collect (fields : List (String × Value)) : Value := .object (Fields.ofList fields)

/-- The value that a node stands for. -/
def value (tree : Tree) (rule : KeyRule) : (depth : Nat) → Node → Reading Value
  | depth, node => do
    match ← tree.follow node, depth with
    | .scalar tag style text, _ => lift (meaning tag style text)
    | .sequence tag items, depth + 1 =>
      if isLocalTag tag then fail (.mismatch "an untagged value")
      else return .array (← items.mapM fun item => value tree rule depth item)
    | .mapping tag entries, depth + 1 =>
      if isLocalTag tag then fail (.mismatch "an untagged value")
      else
        let fields ← entries.mapM fun (key, item) => do
          return (← tree.key rule key, ← value tree rule depth item)
        return collect fields
    | _, _ => fail .tooDeep

/-- What is read from the document, all aliases counted. -/
def run (tree : Tree) (reading : Tree → Node → Reading α) (nothing : Except Fault α) :
    Except Fault α := match tree.root with
  | none => nothing
  | some root => (reading tree root (100 * root.size)).map (·.1)

/-- What is given for a field of a record, which may be given once. -/
def field? (name : String) (given : List (String × Node)) : Except Fault (Option Node) :=
  match given.filter fun entry => entry.1 = name with
  | [] => .ok none
  | [(_, node)] => .ok (some node)
  | _ => .error (.duplicateField name)

/-- A field that has to be given. -/
def required (name : String) (given : List (String × Node)) (read : Node → Reading α) :
    Reading α := do
  match ← lift (field? name given) with
  | some node => read node
  | none => fail (.missingField name)

/-- A field that may be missing. -/
def optional (name : String) (given : List (String × Node)) (default : α)
    (read : Node → Reading α) : Reading α := do
  match ← lift (field? name given) with
  | some node => read node
  | none => return default

end Tree

/-- The value that a text states. -/
def readValue (text : String) : Except Fault Value := do
  let tree ← Tree.read text
  tree.run (fun tree node => tree.value .anyScalar depthLimit node) (.ok .null)

end Newsreel.Yaml
