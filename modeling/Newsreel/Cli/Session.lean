import Newsreel.Cli.Style
import Newsreel.History.Basic
import Newsreel.Media.Programs

/-!
Work of the program: on files and on a history, with lines for people printed on the way. It may end
early.
-/

namespace Newsreel.Cli

/-- What the program finds around it. -/
structure Host where
  now : Calendar.DateTime
  network : Web.Network
  programs : Programs
  /-- The place chosen among a number of choices, by the number of choices made before. -/
  pick : (draws count : Nat) → Nat
  /-- The id for a new run. -/
  freshId : String
  paint : Paint := Paint.plain

def Host.surroundings (host : Host) : Surroundings where
  now := host.now
  network := host.network
  encoder := host.programs.encoder
  pick := host.pick
  freshId := host.freshId

/-- What the program leaves changed. -/
structure Session (σ : Type) where
  world : World := {}
  history : σ
  /-- What has been printed. -/
  printed : String := ""

/-- An end before the end. -/
structure Failure where
  code : Nat := 1
  /-- What is said about it outside of what is printed. -/
  complaint : Option String := none
  deriving DecidableEq, Repr

abbrev Work (σ α : Type) := ExceptT Failure (StateM (Session σ)) α

namespace Work

/-- Prints a line. -/
def say (line : String) : Work σ Unit := fun session =>
  (.ok (), { session with printed := session.printed ++ line ++ "\n" })

/-- Ends the program with nothing printed about it. -/
def fail (complaint : String) : Work σ α := fun session =>
  (.error { complaint := some complaint }, session)

/-- Ends the program; what there is to say has been printed. -/
def stop : Work σ α := fun session => (.error {}, session)

/-- The text of a file. -/
def readFile (path : String) : Work σ (Except FileFault String) := fun session =>
  (.ok (session.world.files.read path), session)

def history : Work σ σ := fun session => (.ok session.history, session)

/-- Enters a run into the history. -/
def enter [History σ] (summary : RunSummary) : Work σ Unit := fun session =>
  (.ok (), { session with history := History.save session.history summary })

/-- Work on the world that cannot end the program. -/
def onWorld (work : World → α × World) : Work σ α := fun session =>
  let (a, world) := work session.world
  (.ok a, { session with world })

end Work

end Newsreel.Cli
