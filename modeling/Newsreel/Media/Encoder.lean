import Newsreel.Fault
import Newsreel.Files.Tree

/-!
The encoder: what measures audio clips and turns images and clips into a video.

It is a parameter of a run. What it answers may depend on the files that it finds and on the calls
before; what it writes is not followed up.
-/

namespace Newsreel

/-- Arguments and additional environment of one start of the encoder. -/
structure Invocation where
  args : List String
  env : List (String × String) := []
  deriving DecidableEq, Repr

/-- A start of the encoder and the files that it found. -/
structure EncoderCall where
  invocation : Invocation
  files : Files.Tree

structure Encoder where
  /-- The seconds that an audio file lasts. -/
  audioDuration : (path : String) → Except StepError Float
  run : (before : List EncoderCall) → EncoderCall → Except StepError Unit

end Newsreel
