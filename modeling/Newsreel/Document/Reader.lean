import Newsreel.Document
import Newsreel.Yaml.Reading

/-!
Step documents written as YAML.
-/

namespace Newsreel

open Yaml

/-- Why a text is no document that can be compiled. -/
inductive DocumentTextFault where
  | yaml (fault : Yaml.Fault)
  | document (fault : DocumentFault)
  deriving DecidableEq, Repr

def DocumentTextFault.message : DocumentTextFault → String
  | .yaml fault => fault.message
  | .document fault => fault.message

/-- A step: its type is a text, and its parameters are values of any kind. -/
def StepConfig.ofNode (tree : Tree) (depth : Nat) (node : Node) : Reading StepConfig := do
  let (depth, given) ← tree.entries depth node
  let type ← Tree.required "type" given tree.text
  let params ← (given.filter fun entry => entry.1 ≠ "type").mapM fun (name, node) => do
    return (name, ← tree.value .textOnly depth node)
  return { type, params := Fields.ofList params }

def Storing.ofNode (tree : Tree) (depth : Nat) (node : Node) : Reading Storing := do
  let (_, given) ← tree.entries depth node
  return {
    name := ← Tree.required "name" given tree.text
    key := ← Tree.optional "key" given defaultFetchKey tree.text }

namespace Document

def ofNode (tree : Tree) (node : Node) : Reading Document := do
  let (depth, given) ← tree.entries depthLimit node
  return {
    name := ← Tree.required "name" given tree.text
    description := ← Tree.optional "description" given none tree.optionalText
    steps := ← Tree.required "steps" given fun node => do
      let (depth, items) ← tree.items depth node
      items.mapM (StepConfig.ofNode tree depth)
    storing := ← Tree.optional "storing" given [] fun node => do
      let (depth, items) ← tree.items depth node
      items.mapM (Storing.ofNode tree depth) }

/-- The document that a text states. -/
def read (text : String) : Except DocumentTextFault Document := do
  let tree ← (Tree.read text).mapError .yaml
  let document ← (tree.run ofNode (.error (.missingField "name"))).mapError .yaml
  match document.fault? with
  | some fault => .error (.document fault)
  | none => return document

end Document

end Newsreel
