import Newsreel.Media.Encoder
import Newsreel.Transform.Apply
import Newsreel.Web.Exchange

/-!
What a run works with: surroundings that it cannot change, and a world that it leaves changed.
-/

namespace Newsreel

/-- What a run finds around it. -/
structure Surroundings where
  /-- The time of the run. -/
  now : Calendar.DateTime
  network : Web.Network
  encoder : Encoder
  /-- The place chosen among a number of choices, by the number of choices made before. -/
  pick : (draws count : Nat) → Nat
  /-- The id for a run that has none yet. -/
  freshId : String

def Surroundings.chance (surroundings : Surroundings) : Chance :=
  ⟨surroundings.now.date, surroundings.pick⟩

/-- The files, and what has been sent and started so far. -/
structure World where
  files : Files.Tree := {}
  exchanges : Web.Log := []
  calls : List EncoderCall := []

/-- Work on the world. -/
abbrev Effect (α : Type) := Attempt World α

namespace Effect

/-- Work on the files. -/
def onFiles (work : Files.Work α) : Effect α := fun world =>
  match work world.files with
  | (.ok a, files) => (.ok a, { world with files })
  | (.error fault, files) => (.error (.file fault), { world with files })

/-- The text of a file. -/
def readFile (path : String) : Effect String :=
  onFiles (Files.Work.look fun files => files.read path)

/-- The value that a file holds. -/
def readValue (path : String) : Effect Value := do
  let text ← readFile path
  match Json.read text with
  | .ok value => return value
  | .error fault => throw (.json fault)

def send (surroundings : Surroundings) (request : Request) : Effect Value :=
  Attempt.within World.exchanges (fun world exchanges => { world with exchanges })
    (Web.send surroundings.network request)

/-- Starts the encoder on the files as they are. -/
def encode (surroundings : Surroundings) (invocation : Invocation) : Effect Unit := fun world =>
  let call : EncoderCall := ⟨invocation, world.files⟩
  (surroundings.encoder.run world.calls call, { world with calls := world.calls ++ [call] })

end Effect

end Newsreel
