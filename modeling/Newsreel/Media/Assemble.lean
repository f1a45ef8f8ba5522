import Newsreel.Media.Arguments
import Newsreel.World

/-!
Sequences made into videos.

The timeline is built first; only then are files written and the encoder started. Intermediate files
lie in a directory of the run.
-/

namespace Newsreel.Media

/-- Where the video of a job goes. With the time of its making in its name it replaces no other. -/
def outputPath (config : JobConfig) (time : Option Calendar.DateTime) : String :=
  Files.join config.outputPath (match time with
    | some time => config.jobName ++ "_" ++ time.stamp ++ ".mp4"
    | none => config.jobName ++ ".mp4")

/-- The directory for the intermediate files of a run. -/
def tempDirectory (context : Context) : String :=
  Files.join context.config.tempPath context.runId

def secondsText (x : Float) : String := Decimal.plainLayout.write x

/-- Joins the audio files of a timeline; there may be none. -/
def joinAudio (surroundings : Surroundings) (config : JobConfig) (directory : String)
    (audios : List String) : Effect (Option String) :=
  if audios.isEmpty then pure none
  else do
    let list := Files.join directory "input.txt"
    Effect.onFiles (Files.Work.write list (Encoder.concatList audios))
    let audio := Files.join directory "audio.mp3"
    Effect.encode surroundings
      { args := Encoder.concatArgs list audio, env := Encoder.environment config.nvenc }
    return some audio

/-- Makes the video of a timeline and gives its path. -/
def render (surroundings : Surroundings) (context : Context) (spec : SequenceSpec)
    (timeline : Timeline Float) : Effect String := do
  let config := context.config
  let directory := tempDirectory context
  Effect.onFiles (Files.Work.makeDirectories directory)
  let audio ← joinAudio surroundings config directory timeline.audios
  let timed := spec.outTime.getD config.outTime
  let output := outputPath config (if timed then some surroundings.now else none)
  Effect.onFiles (Files.Work.makeDirectories (Files.parent output))
  Effect.encode surroundings {
    args := Encoder.videoArgs binary64 secondsText timeline.clips audio
      (secondsText spec.transitions) config.nvenc output
    env := Encoder.environment config.nvenc }
  return output

/-- Builds the timeline of a sequence; one without clips cannot be shown. -/
def timeline (surroundings : Surroundings) (context : Context) (scope : Scope)
    (spec : SequenceSpec) : Except StepError (Timeline Float) := do
  let timeline ← Timeline.build binary64 surroundings.encoder.audioDuration context scope spec
  if timeline.clips.isEmpty then .error (.invalidValue "images" .nothingToRender)
  else return timeline

/-- Makes the video of a sequence. A failure names the kind of the sequence. -/
def assemble (surroundings : Surroundings) (context : Context) (scope : Scope)
    (spec : SequenceSpec) : Effect String :=
  Attempt.annotate (.sequence spec.kind) (do
    let timeline ← Attempt.ofExcept (timeline surroundings context scope spec)
    render surroundings context spec timeline)

end Newsreel.Media
