import Newsreel.Cli.Program
import Newsreel.History.Table
import Std.Time.DateTime.Timestamp

/-!
The program on a machine.

The files that a command can read are taken in before it is carried out, and those that it has
written are written down behind it. The history lies in a file of its own. Nothing here starts other
programs or reaches a server: an encoder counts as missing and a request as one without an answer.
-/

namespace Newsreel.Machine

/-- Where the history lies. -/
def historyPath : String := JobConfig.dataRoot ++ "/history.json"

/-- The text of a file, if it is there. -/
def fileText? (path : String) : IO (Option String) := do
  try return some (← IO.FS.readFile path) catch _ => return none

/-- The tree with a file, or with everything below a directory. -/
partial def load (tree : Files.Tree) (path : String) : IO Files.Tree := do
  match ← fileText? path with
  | some text => return tree.withFile path text
  | none =>
    try
      let entries ← (← IO.FS.realPath path).readDir
      entries.foldlM (fun tree entry => load tree (Files.join path entry.fileName)) tree
    catch _ => return tree

/-- Writes a file, in directories that are made for it. -/
def save (path text : String) : IO Unit := do
  let directory := Files.parent path
  unless directory = "" do IO.FS.createDirAll directory
  IO.FS.writeFile path text

/-- The machine at this moment. -/
def host : IO Cli.Host := do
  let seconds := (← Std.Time.Timestamp.now).toSecondsSinceUnixEpoch.val
  let id ← IO.rand 0 (Nat.pow 16 32)
  let seed ← IO.rand 0 1000000
  return {
    now := (Calendar.DateTime.ofSeconds? seconds 0).getD ⟨⟨1970, 1, 1⟩, ⟨0, 0, 0, 0⟩⟩
    network := Web.unreachable
    programs := { start := fun _ => .error .notFound }
    pick := fun draws count => (seed + 7919 * draws) % count
    freshId := RunId.ofNumber id }

/-- Everything that a command can read. -/
def prepare (host : Cli.Host) (words : List String) : IO (Cli.Session RunTable) := do
  let history := RunTable.ofText ((← fileText? historyPath).getD "[]")
  match Cli.CommandLine.read words with
  | .error _ => return { history }
  | .ok line =>
    let files ← line.command.files.foldlM load {}
    let session : Cli.Session RunTable := { world := { files }, history }
    let directories := match (Cli.Program.directories host line.command session).1 with
      | .ok directories => directories
      | .error _ => []
    let files ← directories.foldlM load files
    return { world := { files }, history }

/-- Writes down what a command has changed. -/
def record (before after : Cli.Session RunTable) : IO Unit := do
  for (path, text) in after.world.files.changesFrom before.world.files do save path text
  unless after.history = before.history do
    save historyPath (Json.pretty 0 after.history.toValue)

end Newsreel.Machine

open Newsreel Newsreel.Machine in
def main (args : List String) : IO UInt32 := do
  let host ← host
  let words := "newsreel" :: args
  let before ← prepare host words
  let (code, complaint, after) := Cli.Program.exit (Cli.Program.obey host words) before
  IO.print after.printed
  match complaint with
  | some text => IO.eprintln text
  | none => pure ()
  record before after
  return code.toUInt32
