import Newsreel.Text.Digits

/-!
Filter graphs that fade each image over the one before.

A graph is a list of chains of filters; each chain takes some streams and makes one. The image of
input `i + 1` becomes the layer `i`, which fades in when the image begins; the layers are laid one
over the other upon input 0.
-/

namespace Newsreel

/-- A stream of a graph. -/
inductive Stream where
  | input (index : Nat)
  | layer (index : Nat)
  /-- The picture made of the inputs up to this one. -/
  | background (index : Nat)
  /-- What is shown in the end. -/
  | video
  deriving DecidableEq, Repr

def Stream.label : Stream → String
  | .input index => Text.natural index
  | .layer index => "f" ++ Text.natural index
  | .background index => "bg" ++ Text.natural index
  | .video => "v"

structure FilterChain where
  inputs : List Stream
  filters : List String
  output : Stream
  deriving DecidableEq, Repr

namespace FilterChain

def bracketed (stream : Stream) : String := "[" ++ stream.label ++ "]"

def text (chain : FilterChain) : String :=
  String.join (chain.inputs.map bracketed) ++ String.intercalate "," chain.filters
    ++ bracketed chain.output

/-- The layer of an image that begins at the given time. -/
def layer (transition : String) (index : Nat) (offset : String) : FilterChain where
  inputs := [.input (index + 1)]
  filters := [
    "format=yuva444p",
    "fade=d=" ++ transition ++ ":t=in:alpha=1",
    "setpts=PTS-STARTPTS+" ++ offset ++ "/TB"]
  output := .layer index

/-- The layers for images that begin at the given times, from an index on. -/
def layersFrom (transition : String) : (index : Nat) → List String → List FilterChain
  | _, [] => []
  | index, offset :: offsets =>
    layer transition index offset :: layersFrom transition (index + 1) offsets

/-- The picture upon which a layer is laid. -/
def ground (index : Nat) : Stream := if index = 0 then .input 0 else .background index

/-- The layers from an index on, so many of them, laid over what is there. The last one makes the
video. -/
def overlaysFrom : (index : Nat) → (count : Nat) → List FilterChain
  | _, 0 => []
  | index, 1 =>
    [{ inputs := [ground index, .layer index], filters := ["overlay", "format=yuv420p"],
       output := .video }]
  | index, count + 1 =>
    { inputs := [ground index, .layer index], filters := ["overlay"],
      output := .background (index + 1) } :: overlaysFrom (index + 1) count

/-- The graph for images of which all but the first begin at the given times. One or two images
need no graph. -/
def crossfade (transition : String) (offsets : List String) : Option (List FilterChain) :=
  if offsets.length < 2 then none
  else some (layersFrom transition 0 offsets ++ overlaysFrom 0 offsets.length)

end FilterChain

/-- The graph as an argument. -/
def graphText (graph : List FilterChain) : String :=
  String.intercalate ";" (graph.map FilterChain.text)

end Newsreel
