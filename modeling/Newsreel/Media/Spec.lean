import Newsreel.Transform.Spec

/-!
Sequences as they are compiled from documents: the images and audio clips at hand and the order in
which they are shown.
-/

namespace Newsreel

/-- An image of a custom sequence, with the clip that is heard and the seconds added to it. -/
structure PatternEntry where
  image : Value
  audio : Option Value
  timeDiff : Option Value

structure SequenceSpec where
  kind : SequenceKind
  images : Fields
  audios : Fields
  pattern : List PatternEntry
  /-- The seconds that it takes to fade from one image to the next. -/
  transitions : Float
  /-- Whether the video is named for the time of its making, if the step says so. -/
  outTime : Option Bool
  /-- Where the path of the video is written. -/
  key : String

/-- The key that the path of a video is written to unless the step names its own. -/
def defaultSequenceKey : String := "_sequence"

/-- The seconds of a fade unless the step says otherwise. -/
def defaultTransition : Float := 0.8

open Decode

namespace PatternEntry

def imageField : RecordField Value := ⟨"image", any, none⟩
def audioField : RecordField (Option Value) := ⟨"audio_l", option any, some none⟩
def timeDiffField : RecordField (Option Value) := ⟨"time_diff", option any, some none⟩

def ofValue (value : Value) : Except DecodeFault PatternEntry := do
  let given ← record "PatternEntry" [imageField.check, audioField.check, timeDiffField.check] value
  return {
    image := ← imageField.get given
    audio := ← audioField.get given
    timeDiff := ← timeDiffField.get given }

/-- The entry as it is reported. -/
def toValue (entry : PatternEntry) : Value :=
  .object [("image", entry.image), ("audio_l", .ofOption id entry.audio),
    ("time_diff", .ofOption id entry.timeDiff)]

end PatternEntry

/-- How the clips are to follow each other. -/
structure SequenceMode where
  name : String
  pattern : List PatternEntry
  transitions : Float

namespace SequenceMode

def nameField : RecordField String := ⟨"type", text, none⟩
def patternField : RecordField (List PatternEntry) :=
  ⟨"pattern", list PatternEntry.ofValue, some []⟩
def transitionsField : RecordField Float := ⟨"transitions", real, some defaultTransition⟩

def ofValue (value : Value) : Except DecodeFault SequenceMode := do
  let given ← record "SequenceMode"
    [nameField.check, patternField.check, transitionsField.check] value
  return {
    name := ← nameField.get given
    pattern := ← patternField.get given
    transitions := ← transitionsField.get given }

end SequenceMode

namespace SequenceSpec

def audiosField : RecordField Fields := ⟨"audios", fields, some []⟩

/-- The audio clips by name. -/
def audioParams (value : Value) : Except DecodeFault Fields := do
  audiosField.get (← record "AudioParams" [audiosField.check] value)

def modeField : RecordField SequenceMode := ⟨"sequence", SequenceMode.ofValue, none⟩
def imagesField : RecordField Fields := ⟨"images", fields, some []⟩
def audioField : RecordField Fields := ⟨"audio", audioParams, some []⟩
def outTimeField : RecordField (Option Bool) := ⟨"out_time", option flag, some none⟩
def keyField : RecordField String := ⟨"key", text, some defaultSequenceKey⟩

def checks : List Check :=
  [modeField.check, imagesField.check, audioField.check, outTimeField.check, keyField.check]

/-- The name of the kind that a value states, and the sequence of that kind. -/
def ofValue (value : Value) : Except DecodeFault (String × (SequenceKind → SequenceSpec)) := do
  let given ← openRecord "SequenceParams" checks value
  let mode ← modeField.get given
  let images ← imagesField.get given
  let audios ← audioField.get given
  let outTime ← outTimeField.get given
  let key ← keyField.get given
  return (mode.name, fun kind =>
    { kind, images, audios, outTime, key
      pattern := mode.pattern
      transitions := mode.transitions })

/-- What a sequence of its kind may not do without. -/
def fault? (spec : SequenceSpec) : Option ShapeFault :=
  if spec.kind = .custom ∧ spec.pattern.isEmpty then some .noPattern
  else if spec.transitions < 0 then some .negativeTransition
  else none

/-- Compiles a sequence. -/
def compile (table : DispatchTable) (config : StepConfig) : Except StepError SequenceSpec := do
  let (name, ofKind) ← TransformSpec.params config ofValue
  let kind ← table.sequence name
  let spec := ofKind kind
  match spec.fault? with
  | some fault => .error (.invalidStep kind.name fault)
  | none => return spec

/-- The sequence as it is reported. -/
def toValue (spec : SequenceSpec) : Value :=
  .object [("kind", .string spec.kind.name), ("images", .object spec.images),
    ("audios", .object spec.audios), ("pattern", .array (spec.pattern.map PatternEntry.toValue)),
    ("transitions", .ofFloat spec.transitions), ("out_time", .ofOption .bool spec.outTime),
    ("key", .string spec.key)]

end SequenceSpec

end Newsreel
