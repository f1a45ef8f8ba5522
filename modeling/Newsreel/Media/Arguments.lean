import Newsreel.Media.Graph
import Newsreel.Media.Timeline

/-!
What the encoder is told: first to join the audio files named in a list, then to make the video of
the images and the joined track.
-/

namespace Newsreel

namespace Encoder

/-- The resolution of every video. -/
def resolution : String := "1920x1080"

/-- How much the encoder reports of itself. -/
def logLevel : String := "8"

/-- Where the libraries of the graphics card lie. -/
def cudaPath : String := "/usr/local/cuda/lib64"

/-- The environment in which the graphics card encodes. -/
def environment (nvenc : Bool) : List (String × String) :=
  if nvenc then [("LD_LIBRARY_PATH", cudaPath)] else []

/-- One line of a list of files. -/
def concatLine (path : String) : String := "file 'file:" ++ path ++ "'\n"

/-- The list of the files to be joined. -/
def concatList (paths : List String) : String := String.join (paths.map concatLine)

/-- Joins the files of a list as they are. -/
def concatArgs (list output : String) : List String :=
  ["-loglevel", logLevel, "-f", "concat", "-safe", "0", "-i", list, "-c", "copy", output]

/-- An image as an input of its own length. -/
def clipArgs (durationText : τ → String) (clip : Clip τ) : List String :=
  ["-loop", "1", "-t", durationText clip.duration, "-i", clip.image]

/-- The graph for some clips. -/
def graph (reckoning : Reckoning τ) (durationText : τ → String) (transition : String)
    (durations : List τ) : Option String :=
  (FilterChain.crossfade transition
    ((Timeline.offsets reckoning durations).tail.map durationText)).map graphText

/-- The graph and what is taken from it, or the plain pixel format. -/
def pictureArgs (graph : Option String) (track : Option Nat) : List String :=
  match graph, track with
  | some graph, some track =>
    ["-filter_complex", graph, "-map", "[v]", "-map", Text.natural track ++ ":a"]
  | some graph, none => ["-filter_complex", graph, "-map", "[v]"]
  | none, _ => ["-pix_fmt", "yuv420p"]

/-- Makes the video of some clips. The joined track is the input behind the images. -/
def videoArgs (reckoning : Reckoning τ) (durationText : τ → String) (clips : List (Clip τ))
    (audio : Option String) (transition : String) (nvenc : Bool) (output : String) :
    List String :=
  ["-loglevel", logLevel, "-y"]
    ++ clips.flatMap (clipArgs durationText)
    ++ (match audio with
      | some audio => ["-i", audio, "-c:a", "copy"]
      | none => [])
    ++ pictureArgs (graph reckoning durationText transition (clips.map (·.duration)))
      (audio.map fun _ => clips.length)
    ++ (if nvenc then ["-c:v", "h264_nvenc"] else [])
    ++ ["-s", resolution, output]

end Encoder

end Newsreel
