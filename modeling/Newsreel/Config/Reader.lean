import Newsreel.Config
import Newsreel.Text.Blank
import Newsreel.Yaml.Reading

/-!
Configurations of jobs written as YAML, and single entries of them replaced.
-/

namespace Newsreel

open Yaml

/-- Why a text is no configuration. -/
inductive ConfigTextFault where
  | yaml (fault : Yaml.Fault)
  /-- The job has no name. -/
  | unnamed
  deriving DecidableEq, Repr

def ConfigTextFault.message : ConfigTextFault → String
  | .yaml fault => fault.message
  | .unnamed => "job_name must not be empty"

namespace JobConfig

/-- Texts by name, of a name that comes up again the last one. -/
def keysOfNode (tree : Tree) (depth : Nat) (node : Node) : Reading (List (String × String)) := do
  let (_, given) ← tree.entries depth node
  let keys ← given.mapM fun (name, node) => do return (name, ← tree.text node)
  return keys.foldl (fun kept entry => kept.filter (fun old => old.1 ≠ entry.1) ++ [entry]) []

def ofEntries (tree : Tree) (depth : Nat) (given : List (String × Node)) :
    Reading JobConfig := do
  let path (name : String) : Reading String :=
    Tree.optional (name ++ "_path") given (dataRoot ++ "/" ++ name) tree.text
  let switch (name : String) : Reading Bool := Tree.optional name given false tree.flag
  let extra ← (given.filter fun entry => !isKnown entry.1).mapM fun (name, node) => do
    return (name, ← tree.value .textOnly depth node)
  return {
    jobName := ← Tree.optional "job_name" given defaultName tree.text
    outputPath := ← Tree.optional "output_path" given (dataRoot ++ "/out") tree.text
    tempPath := ← path "temp"
    memoryPath := ← path "memory"
    fixturesPath := ← Tree.optional "fixtures_path" given (dataRoot ++ "/exampledata") tree.text
    testing := ← switch "testing"
    nvenc := ← switch "h264_nvenc"
    outTime := ← switch "out_time"
    apiKeys := ← Tree.optional "api_keys" given [] (keysOfNode tree depth)
    extra := Fields.ofList extra }

def ofNode (tree : Tree) (node : Node) : Reading JobConfig := do
  let (depth, given) ← tree.entries depthLimit node
  ofEntries tree depth given

/-- The configuration that a text states. -/
def read (text : String) : Except ConfigTextFault JobConfig := do
  let tree ← (Tree.read text).mapError .yaml
  let config ← (tree.run ofNode (.ok (JobConfig.named defaultName))).mapError .yaml
  if Text.isBlankText config.jobName then .error .unnamed else return config

/-- What is given for an entry: the value that the text states, or else the text itself. -/
def entryValue (raw : String) : Value := match readValue raw with
  | .ok value => value
  | .error _ => .string raw

/-- The configuration with one entry replaced by what a text gives for it. -/
def override (config : JobConfig) (key raw : String) : Except DecodeFault Unit × JobConfig :=
  config.set key (entryValue raw)

end JobConfig

end Newsreel
