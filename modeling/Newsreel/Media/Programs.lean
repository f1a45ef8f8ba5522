import Newsreel.Attempt
import Newsreel.Decimal.Reader
import Newsreel.Media.Encoder
import Newsreel.Text.Blank

/-!
The encoder as two programs of the machine: one that measures and one that encodes.
-/

namespace Newsreel

/-- A program with all that it is started with. -/
structure Start where
  program : String
  args : List String
  env : List (String × String) := []
  deriving DecidableEq, Repr

namespace Start

/-- All texts that a program is started with. -/
def texts (start : Start) : List String :=
  start.program :: start.args ++ start.env.flatMap fun (name, value) => [name, value]

/-- Whether a program can be told all of them. -/
def isSound (start : Start) : Bool :=
  start.texts.all fun text => !text.toList.contains (Char.ofNat 0)

end Start

/-- How a program ended and what it wrote. -/
structure Ending where
  /-- The code that it ended with, unless it was killed. -/
  code : Option Int
  output : String
  errors : String
  deriving DecidableEq, Repr

namespace Ending

def isSuccess (ending : Ending) : Bool := ending.code = some 0

/-- All that a program wrote, without blanks around it. -/
def report (ending : Ending) : String := Text.trim (ending.output ++ ending.errors)

/-- A program that did not do its work. -/
def error (ending : Ending) : StepError := .encoding (ending.code.getD (-1)) ending.report

end Ending

/-- The programs of a machine. -/
structure Programs where
  /-- What comes of a start, or why nothing could be started. -/
  start : Start → Except FileFault Ending

namespace Programs

def encoderName : String := "ffmpeg"
def probeName : String := "ffprobe"

/-- What has been started, in order. -/
abbrev Log := List Start

/-- Starts a program and waits for its end. -/
def run (programs : Programs) (start : Start) : Attempt Log Ending := fun log =>
  if start.isSound then
    match programs.start start with
    | .ok ending => (.ok ending, log ++ [start])
    | .error fault => (.error (.file fault), log)
  else (.error (.file .invalidArgument), log)

/-- Asks for the length of an audio file and nothing else. -/
def probe (path : String) : Start where
  program := probeName
  args := ["-v", "error", "-show_entries", "format=duration", "-of",
    "default=noprint_wrappers=1:nokey=1", path]

/-- The seconds that an audio file lasts. -/
def audioDuration (programs : Programs) (path : String) : Attempt Log Float := do
  let ending ← programs.run (probe path)
  if !ending.isSuccess then throw ending.error
  else
    let raw := Text.trim ending.output
    match Decimal.read? raw with
    | some seconds => return seconds
    | none => throw (StepError.invalidValue path (.noDuration raw))

/-- Encodes as told. -/
def encode (programs : Programs) (invocation : Invocation) : Attempt Log Unit := do
  let ending ← programs.run ⟨encoderName, invocation.args, invocation.env⟩
  if !ending.isSuccess then throw ending.error

/-- Whether a program can be started and tells its version. -/
def answers (programs : Programs) (program : String) : Attempt Log Bool := fun log =>
  match programs.run ⟨program, ["-version"], []⟩ log with
  | (.ok ending, log) => (.ok ending.isSuccess, log)
  | (.error _, log) => (.ok false, log)

/-- Whether both programs are there. The second one is tried only if the first one is. -/
def areAvailable (programs : Programs) : Attempt Log Bool := do
  if ← programs.answers encoderName then programs.answers probeName else return false

/-- The encoder that these programs make. -/
def encoder (programs : Programs) : Encoder where
  audioDuration path := (programs.audioDuration path []).1
  run _ call := (programs.encode call.invocation []).1

end Programs

end Newsreel
