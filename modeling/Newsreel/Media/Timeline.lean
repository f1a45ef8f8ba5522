import Newsreel.Context.Format
import Newsreel.Decimal.Reader
import Newsreel.Media.Encoder
import Newsreel.Media.Spec

/-!
Timelines: which image is shown for how long, and which audio clips are heard.

A sequence of either kind becomes a timeline once the clips have been measured. Lengths may be
reckoned in any numbers; videos are made with binary64 ones.
-/

namespace Newsreel

/-- How lengths of time are reckoned. -/
structure Reckoning (τ : Type) where
  zero : τ
  add : τ → τ → τ
  ofNumber : Number → τ
  read? : String → Option τ

/-- Lengths in binary64 numbers. -/
def binary64 : Reckoning Float := ⟨0, (· + ·), Number.toFloat, Decimal.read?⟩

/-- An image shown for some time. -/
structure Clip (τ : Type) where
  image : String
  duration : τ

/-- Clips and audio files in the order in which they are played. -/
structure Timeline (τ : Type) where
  clips : List (Clip τ)
  audios : List String

namespace Timeline

/-- The path that a template stands for. -/
def filePath (context : Context) (scope : Scope) (template : Value) : Except StepError String :=
  context.formatText scope template

/-- The path of the file that a template names. -/
def namedPath (context : Context) (scope : Scope) (files : Fields) (field : String)
    (name : Value) : Except StepError String := do
  let name ← context.formatText scope name
  match Fields.find? name files with
  | some template => filePath context scope template
  | none => .error (.unresolved (field ++ "." ++ name))

/-- The seconds that a value states. -/
def seconds (reckoning : Reckoning τ) : Value → Except StepError τ
  | .number n => .ok (reckoning.ofNumber n)
  | .string s => match reckoning.read? (Text.trim s) with
    | some x => .ok x
    | none => .error (.invalidValue "time_diff" (.notANumber s))
  | other => .error (.invalidValue "time_diff" (.notANumber (Json.compact other)))

/-- The audio files with their lengths. -/
def measured (measure : String → Except StepError τ) (context : Context) (scope : Scope) :
    List Value → Except StepError (List (String × τ))
  | [] => .ok []
  | template :: templates => do
    let path ← filePath context scope template
    let length ← measure path
    let rest ← measured measure context scope templates
    return (path, length) :: rest

/-- Images side by side with the lengths of their clips. -/
def pairClips (context : Context) (scope : Scope) :
    List Value → List τ → Except StepError (List (Clip τ))
  | template :: templates, duration :: durations => do
    let image ← filePath context scope template
    let rest ← pairClips context scope templates durations
    return ⟨image, duration⟩ :: rest
  | _, _ => .ok []

/-- One image for each audio clip. -/
def successive (measure : String → Except StepError τ) (context : Context) (scope : Scope)
    (spec : SequenceSpec) : Except StepError (Timeline τ) := do
  let audios ← measured measure context scope (spec.audios.map (·.2))
  if audios.length < spec.images.length then
    .error (.invalidValue "images" (.tooManyImages spec.images.length audios.length))
  else
    let clips ← pairClips context scope (spec.images.map (·.2)) (audios.map (·.2))
    return { clips, audios := audios.map (·.1) }

/-- An entry of a pattern: the clip and, if there is one, the audio file. -/
def entry (reckoning : Reckoning τ) (measure : String → Except StepError τ) (context : Context)
    (scope : Scope) (spec : SequenceSpec) (entry : PatternEntry) :
    Except StepError (Clip τ × List String) := do
  let image ← namedPath context scope spec.images "images" entry.image
  let extra ← match entry.timeDiff with
    | some timeDiff => seconds reckoning (← context.format scope timeDiff)
    | none => .ok reckoning.zero
  match entry.audio with
  | none => return (⟨image, extra⟩, [])
  | some name =>
    let audio ← namedPath context scope spec.audios "audio.audios" name
    let length ← measure audio
    return (⟨image, reckoning.add extra length⟩, [audio])

/-- The entries of a pattern in order. -/
def entries (reckoning : Reckoning τ) (measure : String → Except StepError τ) (context : Context)
    (scope : Scope) (spec : SequenceSpec) :
    List PatternEntry → Except StepError (Timeline τ)
  | [] => .ok ⟨[], []⟩
  | first :: rest => do
    let (clip, audios) ← entry reckoning measure context scope spec first
    let timeline ← entries reckoning measure context scope spec rest
    return ⟨clip :: timeline.clips, audios ++ timeline.audios⟩

/-- The timeline of a sequence. -/
def build (reckoning : Reckoning τ) (measure : String → Except StepError τ) (context : Context)
    (scope : Scope) (spec : SequenceSpec) : Except StepError (Timeline τ) :=
  match spec.kind with
  | .successively => successive measure context scope spec
  | .custom => entries reckoning measure context scope spec spec.pattern

/-- The time at which each clip begins. -/
def offsetsFrom (reckoning : Reckoning τ) (elapsed : τ) : List τ → List τ
  | [] => []
  | duration :: durations =>
    elapsed :: offsetsFrom reckoning (reckoning.add elapsed duration) durations

/-- The times at which clips of the given lengths begin, one after the other. -/
def offsets (reckoning : Reckoning τ) (durations : List τ) : List τ :=
  offsetsFrom reckoning reckoning.zero durations

end Timeline

end Newsreel
