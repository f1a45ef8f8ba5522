import Mathlib.Algebra.BigOperators.Group.List.Basic
import Mathlib.Algebra.Ring.Rat
import Newsreel.Media.Timeline
import Newsreel.Proofs.Attempt

/-!
Sound and picture of a timeline.

A timeline is a list of scenes: an image, the time added to it, and the audio file heard with it, if
there is one. The audio files are joined without gaps, so a scene's sound begins when the sounds
before it are over, while its image begins when the scenes before it are over. The two differ by the
time added before the scene.
-/

namespace Newsreel

variable {τ : Type}

namespace Reckoning

/-- Lengths in numbers that are added without rounding. -/
def exact [Zero τ] [Add τ] (ofNumber : Number → τ) (read? : String → Option τ) : Reckoning τ :=
  ⟨0, (· + ·), ofNumber, read?⟩

/-- How long clips of the given lengths last, one after the other. -/
def total (reckoning : Reckoning τ) (durations : List τ) : τ :=
  durations.foldl reckoning.add reckoning.zero

theorem total_exact [AddMonoid τ] (ofNumber : Number → τ) (read? : String → Option τ)
    (durations : List τ) : (exact ofNumber read?).total durations = durations.sum :=
  List.sum_eq_foldl.symm

end Reckoning

namespace Timeline

theorem getElem?_offsetsFrom (reckoning : Reckoning τ) (elapsed : τ) (durations : List τ) (i : Nat) :
    (offsetsFrom reckoning elapsed durations)[i]? =
      durations[i]?.map fun _ => (durations.take i).foldl reckoning.add elapsed := by
  induction durations generalizing elapsed i with
  | nil => simp [offsetsFrom]
  | cons duration rest ih =>
    cases i with
    | zero => simp [offsetsFrom]
    | succ i =>
      rw [offsetsFrom, List.getElem?_cons_succ, ih]
      simp

/-- A clip begins when all clips before it are over. -/
theorem getElem?_offsets (reckoning : Reckoning τ) (durations : List τ) (i : Nat) :
    (offsets reckoning durations)[i]? =
      durations[i]?.map fun _ => reckoning.total (durations.take i) :=
  getElem?_offsetsFrom reckoning reckoning.zero durations i

end Timeline

/-- An image with what is heard while it is shown. -/
structure Scene (τ : Type) where
  image : String
  /-- The time that the image is shown beyond its sound. -/
  added : τ
  /-- The audio file and its length. -/
  sound : Option (String × τ)

namespace Scene

/-- The image for the whole time. -/
def clip (reckoning : Reckoning τ) (scene : Scene τ) : Clip τ where
  image := scene.image
  duration := match scene.sound with
    | none => scene.added
    | some (_, length) => reckoning.add scene.added length

/-- The audio files of scenes in order, with their lengths. -/
def sounds (scenes : List (Scene τ)) : List (String × τ) := scenes.filterMap (·.sound)

theorem length_sounds {scenes : List (Scene τ)} (all : ∀ scene ∈ scenes, scene.sound.isSome) :
    (sounds scenes).length = scenes.length := by
  induction scenes with
  | nil => rfl
  | cons scene rest ih =>
    obtain ⟨sound, heard⟩ := Option.isSome_iff_exists.mp (all scene List.mem_cons_self)
    have behind := ih fun other member => all other (List.mem_cons_of_mem _ member)
    rw [sounds, List.filterMap_cons, heard, List.length_cons, List.length_cons, ← behind]
    rfl

/-- How long the sounds of scenes last. -/
def soundTime [AddMonoid τ] (scenes : List (Scene τ)) : τ := ((sounds scenes).map (·.2)).sum

/-- How much time is added to the sounds of scenes. -/
def addedTime [AddMonoid τ] (scenes : List (Scene τ)) : τ := (scenes.map (·.added)).sum

/-- The times at which scenes begin. -/
def starts [AddMonoid τ] (ofNumber : Number → τ) (read? : String → Option τ)
    (scenes : List (Scene τ)) : List τ :=
  Timeline.offsets (.exact ofNumber read?)
    (scenes.map fun scene => (scene.clip (.exact ofNumber read?)).duration)

/-- Each sound begins together with its image: when the sounds before it are over, the scenes before
it are over as well. -/
def Aligned [AddMonoid τ] (ofNumber : Number → τ) (read? : String → Option τ)
    (scenes : List (Scene τ)) : Prop :=
  ∀ i scene, scenes[i]? = some scene → scene.sound.isSome →
    (starts ofNumber read? scenes)[i]? = some (soundTime (scenes.take i))

section Exact

variable [AddCommMonoid τ] {ofNumber : Number → τ} {read? : String → Option τ}
  {scenes : List (Scene τ)}

theorem total_scenes (ofNumber : Number → τ) (read? : String → Option τ)
    (scenes : List (Scene τ)) :
    (scenes.map fun scene => (scene.clip (.exact ofNumber read?)).duration).sum =
      soundTime scenes + addedTime scenes := by
  induction scenes with
  | nil => simp [soundTime, addedTime, sounds]
  | cons scene rest ih =>
    obtain ⟨image, added, sound⟩ := scene
    rw [List.map_cons, List.sum_cons, ih]
    cases sound with
    | none =>
      have sounding : soundTime (⟨image, added, none⟩ :: rest) = soundTime rest := rfl
      have adding : addedTime (⟨image, added, none⟩ :: rest) = added + addedTime rest := by
        simp [addedTime]
      rw [sounding, adding]
      exact add_left_comm added _ _
    | some heard =>
      obtain ⟨path, length⟩ := heard
      have sounding : soundTime (⟨image, added, some (path, length)⟩ :: rest) =
          length + soundTime rest := by
        simp [soundTime, sounds]
      have adding : addedTime (⟨image, added, some (path, length)⟩ :: rest) =
          added + addedTime rest := by
        simp [addedTime]
      rw [sounding, adding]
      calc added + length + (soundTime rest + addedTime rest)
          = length + added + (soundTime rest + addedTime rest) := by rw [add_comm added length]
        _ = length + soundTime rest + (added + addedTime rest) := add_add_add_comm _ _ _ _

/-- A scene begins when the sounds before it are over, later by the time added before it. -/
theorem starts_getElem? {i : Nat} (inside : i < scenes.length) :
    (starts ofNumber read? scenes)[i]? =
      some (soundTime (scenes.take i) + addedTime (scenes.take i)) := by
  have present : scenes[i]? = some scenes[i] := List.getElem?_eq_getElem inside
  rw [starts, Timeline.getElem?_offsets, List.getElem?_map, present, Reckoning.total_exact,
    ← List.map_take, total_scenes]
  rfl

theorem addedTime_of_nothing_added (nothing : ∀ scene ∈ scenes, scene.added = 0) :
    addedTime scenes = 0 := by
  refine List.sum_eq_zero fun x member => ?_
  obtain ⟨scene, inside, rfl⟩ := List.mem_map.mp member
  exact nothing scene inside

/-- Where nothing is added, sound and picture stay together. -/
theorem aligned_of_nothing_added (nothing : ∀ scene ∈ scenes, scene.added = 0) :
    Aligned ofNumber read? scenes := by
  intro i scene present _
  obtain ⟨inside, -⟩ := List.getElem?_eq_some_iff.mp present
  have none : addedTime (scenes.take i) = 0 :=
    addedTime_of_nothing_added fun earlier before => nothing earlier (List.mem_of_mem_take before)
  rw [starts_getElem? inside, none, add_zero]

end Exact

end Scene

namespace Timeline

variable {reckoning : Reckoning τ} {measure : String → Except StepError τ} {context : Context}
  {scope : Scope} {spec : SequenceSpec} {timeline : Timeline τ}

/-! Custom sequences. -/

/-- The scene that an entry of a pattern asks for. -/
structure Describes (reckoning : Reckoning τ) (measure : String → Except StepError τ)
    (context : Context) (scope : Scope) (spec : SequenceSpec) (entry : PatternEntry)
    (scene : Scene τ) : Prop where
  image : namedPath context scope spec.images "images" entry.image = .ok scene.image
  unchanged : entry.timeDiff = none → scene.added = reckoning.zero
  added : ∀ timeDiff, entry.timeDiff = some timeDiff → ∃ value,
    context.format scope timeDiff = .ok value ∧ seconds reckoning value = .ok scene.added
  silent : entry.audio = none → scene.sound = none
  sound : ∀ name, entry.audio = some name → ∃ path length, scene.sound = some (path, length) ∧
    namedPath context scope spec.audios "audio.audios" name = .ok path ∧ measure path = .ok length

theorem Describes.lasts {first : PatternEntry} {scene : Scene τ}
    (describes : Describes reckoning measure context scope spec first scene) {sound : String × τ}
    (heard : sound ∈ Scene.sounds [scene]) : measure sound.1 = .ok sound.2 := by
  have sounding : scene.sound = some sound := by simpa [Scene.sounds] using heard
  cases named : first.audio with
  | none =>
    rw [describes.silent named] at sounding
    cases sounding
  | some name =>
    obtain ⟨path, length, stated, -, lasts⟩ := describes.sound name named
    rw [sounding] at stated
    cases stated
    exact lasts

/-- The time that an entry adds. -/
def addedBy (reckoning : Reckoning τ) (context : Context) (scope : Scope) :
    Option Value → Except StepError τ
  | none => .ok reckoning.zero
  | some timeDiff => do seconds reckoning (← context.format scope timeDiff)

/-- A clip with its added time and the audio file that an entry names. -/
def withSound (reckoning : Reckoning τ) (measure : String → Except StepError τ) (context : Context)
    (scope : Scope) (spec : SequenceSpec) (image : String) (added : τ) :
    Option Value → Except StepError (Clip τ × List String)
  | none => .ok (⟨image, added⟩, [])
  | some name => do
    let audio ← namedPath context scope spec.audios "audio.audios" name
    let length ← measure audio
    return (⟨image, reckoning.add added length⟩, [audio])

theorem entry_eq (first : PatternEntry) : entry reckoning measure context scope spec first = (do
    let image ← namedPath context scope spec.images "images" first.image
    let added ← addedBy reckoning context scope first.timeDiff
    withSound reckoning measure context scope spec image added first.audio) := by
  obtain ⟨image, audio, timeDiff⟩ := first
  cases timeDiff <;> cases audio <;> simp [entry, addedBy, withSound] <;> rfl

theorem entry_ok {first : PatternEntry} {clip : Clip τ} {audios : List String}
    (success : entry reckoning measure context scope spec first = .ok (clip, audios)) :
    ∃ scene, Describes reckoning measure context scope spec first scene ∧
      clip = scene.clip reckoning ∧ audios = (Scene.sounds [scene]).map (·.1) := by
  rw [entry_eq] at success
  obtain ⟨image, named, success⟩ := Outcome.bind_ok_iff.mp success
  obtain ⟨added, stated, success⟩ := Outcome.bind_ok_iff.mp success
  have unchanged (nothing : first.timeDiff = none) : added = reckoning.zero := by
    rw [nothing] at stated
    cases stated
    rfl
  have addedFits (timeDiff : Value) (given : first.timeDiff = some timeDiff) : ∃ value,
      context.format scope timeDiff = .ok value ∧ seconds reckoning value = .ok added := by
    rw [given] at stated
    exact Outcome.bind_ok_iff.mp stated
  cases heard : first.audio with
  | none =>
    rw [heard] at success
    cases success
    exact ⟨⟨image, added, none⟩, ⟨named, unchanged, addedFits, fun _ => rfl, by simp [heard]⟩, rfl,
      rfl⟩
  | some name =>
    rw [heard] at success
    obtain ⟨path, found, success⟩ := Outcome.bind_ok_iff.mp success
    obtain ⟨length, measured, success⟩ := Outcome.bind_ok_iff.mp success
    cases success
    refine ⟨⟨image, added, some (path, length)⟩,
      ⟨named, unchanged, addedFits, by simp [heard], fun other given => ?_⟩, rfl, rfl⟩
    rw [heard] at given
    cases given
    exact ⟨path, length, rfl, found, measured⟩

theorem entries_ok {pattern : List PatternEntry}
    (success : entries reckoning measure context scope spec pattern = .ok timeline) :
    ∃ scenes, List.Forall₂ (Describes reckoning measure context scope spec) pattern scenes ∧
      timeline.clips = scenes.map (Scene.clip reckoning) ∧
      timeline.audios = (Scene.sounds scenes).map (·.1) ∧
      ∀ sound ∈ Scene.sounds scenes, measure sound.1 = .ok sound.2 := by
  induction pattern generalizing timeline with
  | nil =>
    cases success
    exact ⟨[], .nil, rfl, rfl, nofun⟩
  | cons first rest ih =>
    obtain ⟨⟨clip, audios⟩, here, success⟩ := Outcome.bind_ok_iff.mp success
    obtain ⟨later, behind, success⟩ := Outcome.bind_ok_iff.mp success
    cases success
    obtain ⟨scene, describes, rfl, rfl⟩ := entry_ok here
    obtain ⟨scenes, described, clips, heard, lasts⟩ := ih behind
    have split : Scene.sounds (scene :: scenes) = Scene.sounds [scene] ++ Scene.sounds scenes :=
      List.filterMap_append (l := [scene])
    refine ⟨scene :: scenes, .cons describes described, by rw [clips, List.map_cons], ?_, ?_⟩
    · rw [split, List.map_append, ← heard]
    · intro sound member
      rw [split, List.mem_append] at member
      rcases member with itself | later
      · exact describes.lasts itself
      · exact lasts sound later

/-! One image for each audio file. -/

theorem measured_ok {templates : List Value} {audios : List (String × τ)}
    (success : measured measure context scope templates = .ok audios) :
    audios.length = templates.length ∧ ∀ audio ∈ audios, measure audio.1 = .ok audio.2 := by
  induction templates generalizing audios with
  | nil =>
    cases success
    exact ⟨rfl, nofun⟩
  | cons template rest ih =>
    obtain ⟨path, formatted, success⟩ := Outcome.bind_ok_iff.mp success
    obtain ⟨length, lasts, success⟩ := Outcome.bind_ok_iff.mp success
    obtain ⟨later, behind, success⟩ := Outcome.bind_ok_iff.mp success
    cases success
    obtain ⟨count, all⟩ := ih behind
    refine ⟨by simp [count], fun audio member => ?_⟩
    rcases List.mem_cons.mp member with rfl | inside
    · exact lasts
    · exact all audio inside

section Exact

variable [AddCommMonoid τ]

/-- Each image makes a scene with the audio file next to it, and no time is added. -/
theorem pairClips_ok (ofNumber : Number → τ) (read? : String → Option τ) {templates : List Value}
    {audios : List (String × τ)} {clips : List (Clip τ)} (fits : templates.length ≤ audios.length)
    (success : pairClips context scope templates (audios.map (·.2)) = .ok clips) :
    ∃ scenes, clips = scenes.map (Scene.clip (.exact ofNumber read?)) ∧
      scenes.length = templates.length ∧
      Scene.sounds scenes = audios.take templates.length ∧
      ∀ scene ∈ scenes, scene.added = 0 ∧ scene.sound.isSome := by
  induction templates generalizing audios clips with
  | nil =>
    have nothing : clips = [] := by
      cases audios <;> cases success <;> rfl
    exact ⟨[], nothing, rfl, rfl, nofun⟩
  | cons template rest ih =>
    cases audios with
    | nil => simp at fits
    | cons audio others =>
      obtain ⟨path, length⟩ := audio
      obtain ⟨image, formatted, success⟩ := Outcome.bind_ok_iff.mp success
      obtain ⟨later, behind, success⟩ := Outcome.bind_ok_iff.mp success
      cases success
      obtain ⟨scenes, rfl, count, heard, plain⟩ := ih (by simpa using fits) behind
      have duration : Scene.clip (.exact ofNumber read?) ⟨image, 0, some (path, length)⟩ =
          ⟨image, length⟩ := congrArg (Clip.mk image) (zero_add length)
      refine ⟨⟨image, 0, some (path, length)⟩ :: scenes, ?_, ?_, ?_, fun scene member => ?_⟩
      · rw [List.map_cons, duration]
      · rw [List.length_cons, List.length_cons, count]
      · rw [List.length_cons, List.take_succ_cons, ← heard]
        rfl
      · rcases List.mem_cons.mp member with rfl | inside
        · exact ⟨rfl, rfl⟩
        · exact plain scene inside

/-- Images side by side with audio files begin together with them. -/
theorem successive_ok (ofNumber : Number → τ) (read? : String → Option τ)
    (success : successive measure context scope spec = .ok timeline) :
    ∃ scenes spare, timeline.clips = scenes.map (Scene.clip (.exact ofNumber read?)) ∧
      timeline.audios = (Scene.sounds scenes).map (·.1) ++ spare ∧
      (∀ sound ∈ Scene.sounds scenes, measure sound.1 = .ok sound.2) ∧
      scenes.length = spec.images.length ∧
      (∀ scene ∈ scenes, scene.added = 0 ∧ scene.sound.isSome) ∧
      (spec.images.length = spec.audios.length → spare = []) := by
  obtain ⟨audios, measured, success⟩ := Outcome.bind_ok_iff.mp success
  obtain ⟨count, lasts⟩ := measured_ok measured
  rw [List.length_map] at count
  split at success
  · cases success
  · rename_i enough
    obtain ⟨clips, paired, success⟩ := Outcome.bind_ok_iff.mp success
    cases success
    have fits : (spec.images.map (·.2)).length ≤ audios.length := by
      rw [List.length_map]
      exact Nat.not_lt.mp enough
    obtain ⟨scenes, rfl, each, heard, plain⟩ := pairClips_ok ofNumber read? fits paired
    rw [List.length_map] at each heard
    refine ⟨scenes, (audios.drop spec.images.length).map (·.1), rfl, ?_, ?_, each, plain, ?_⟩
    · rw [heard, ← List.map_append, List.take_append_drop]
    · intro sound member
      rw [heard] at member
      exact lasts sound (List.mem_of_mem_take member)
    · intro same
      rw [same, ← count, List.drop_length, List.map_nil]

/-- Every timeline is made of scenes. A scene begins when the sounds before it are over, later by
the time added before it; in a custom sequence there is a scene for each entry of the pattern, and
where each audio file has its image, nothing is added and all ends together. -/
theorem build_aligned {ofNumber : Number → τ} {read? : String → Option τ}
    (built : build (.exact ofNumber read?) measure context scope spec = .ok timeline) :
    ∃ scenes spare, timeline.clips = scenes.map (Scene.clip (.exact ofNumber read?)) ∧
      timeline.audios = (Scene.sounds scenes).map (·.1) ++ spare ∧
      (∀ sound ∈ Scene.sounds scenes, measure sound.1 = .ok sound.2) ∧
      (∀ i < scenes.length,
        (offsets (.exact ofNumber read?) (timeline.clips.map (·.duration)))[i]? =
          some (Scene.soundTime (scenes.take i) + Scene.addedTime (scenes.take i))) ∧
      (spec.kind = .custom → spare = [] ∧ List.Forall₂
        (Describes (.exact ofNumber read?) measure context scope spec) spec.pattern scenes) ∧
      (spec.kind = .successively → scenes.length = spec.images.length ∧
        (∀ scene ∈ scenes, scene.added = 0 ∧ scene.sound.isSome) ∧
        Scene.Aligned ofNumber read? scenes ∧
        (spec.images.length = spec.audios.length → spare = [] ∧
          timeline.clips.length = timeline.audios.length ∧
          (timeline.clips.map (·.duration)).sum = Scene.soundTime scenes)) := by
  have begins {scenes : List (Scene τ)}
      (clips : timeline.clips = scenes.map (Scene.clip (.exact ofNumber read?))) (i : Nat)
      (inside : i < scenes.length) :
      (offsets (.exact ofNumber read?) (timeline.clips.map (·.duration)))[i]? =
        some (Scene.soundTime (scenes.take i) + Scene.addedTime (scenes.take i)) := by
    rw [clips, List.map_map]
    exact Scene.starts_getElem? inside
  rw [build] at built
  split at built
  · rename_i kind
    obtain ⟨scenes, spare, clips, audios, lasts, each, plain, all⟩ :=
      successive_ok ofNumber read? built
    have nothing (scene : Scene τ) (member : scene ∈ scenes) : scene.added = 0 :=
      (plain scene member).1
    refine ⟨scenes, spare, clips, audios, lasts, begins clips, ?_, fun _ => ⟨each, plain,
      Scene.aligned_of_nothing_added nothing, fun same => ?_⟩⟩
    · intro custom
      rw [kind] at custom
      cases custom
    · have sounding := Scene.length_sounds fun scene member => (plain scene member).2
      refine ⟨all same, ?_, ?_⟩
      · rw [clips, audios, all same, List.append_nil, List.length_map, List.length_map, sounding]
      · have total := Scene.total_scenes ofNumber read? scenes
        rw [Scene.addedTime_of_nothing_added nothing, add_zero] at total
        rw [clips, List.map_map]
        exact total
  · rename_i kind
    obtain ⟨scenes, described, clips, audios, lasts⟩ := entries_ok built
    refine ⟨scenes, [], clips, by rw [audios, List.append_nil], lasts, begins clips,
      fun _ => ⟨rfl, described⟩, ?_⟩
    intro successively
    rw [kind] at successively
    cases successively

end Exact

/-- The number that a binary64 number is; infinities and not-a-number are none. -/
def rational (x : Float) : ℚ := match Decimal.parts x with
  | .finite negative mantissa exponent =>
    (if negative then -1 else 1) * (mantissa * 2 ^ exponent.toNat : ℚ) / 2 ^ (-exponent).toNat
  | _ => 0

/-- The number that is stated. -/
def rationalNumber : Number → ℚ
  | .int n => n
  | .float x => rational x

/-- The number that a text states. -/
def rationalText (text : String) : Option ℚ := (Decimal.read? text).map rational

/-- A picture of two seconds before the first sound. -/
def introSequence : SequenceSpec where
  kind := .custom
  images := [("intro", .string "intro.png"), ("sky", .string "sky.png")]
  audios := [("sky", .string "sky.mp3")]
  pattern := [⟨.string "intro", none, some (.ofNat 2)⟩, ⟨.string "sky", some (.string "sky"), none⟩]
  transitions := 0.8
  outTime := none
  key := "_sequence"

/-- A context without data. -/
def blank : Context := .start (JobConfig.named "news") "11111111-2222-4333-8444-555555555555"

/-- The scenes of the sequence when every audio file lasts four seconds. -/
def introScenes : List (Scene ℚ) := [⟨"intro.png", 2, none⟩, ⟨"sky.png", 0, some ("sky.mp3", 4)⟩]

theorem build_intro : build (.exact rationalNumber rationalText) (fun _ => .ok 4) blank Scope.root
    introSequence = .ok ⟨introScenes.map (Scene.clip (.exact rationalNumber rationalText)),
      ["sky.mp3"]⟩ :=
  rfl

/-- Two sounds and a single picture. -/
def spareSequence : SequenceSpec where
  kind := .successively
  images := [("sky", .string "sky.png")]
  audios := [("sky", .string "sky.mp3"), ("wind", .string "wind.mp3")]
  pattern := []
  transitions := 0.8
  outTime := none
  key := "_sequence"

/-- Sound and picture do not always stay together. In a custom sequence the first sound begins at
once, and its picture two seconds later. In a successive one a sound is left without a picture, and
the pictures are over before the sounds are. -/
theorem sounds_apart :
    (0 : ℚ) ≤ 4 ∧
      build (.exact rationalNumber rationalText) (fun _ => .ok 4) blank Scope.root introSequence =
        .ok ⟨introScenes.map (Scene.clip (.exact rationalNumber rationalText)), ["sky.mp3"]⟩ ∧
      Scene.sounds introScenes = [("sky.mp3", 4)] ∧
      Scene.soundTime (introScenes.take 1) = 0 ∧
      (Scene.starts rationalNumber rationalText introScenes)[1]? = some 2 ∧
      ¬Scene.Aligned rationalNumber rationalText introScenes ∧
      build (.exact rationalNumber rationalText) (fun _ => .ok 4) blank Scope.root spareSequence =
        .ok ⟨[⟨"sky.png", 4⟩], ["sky.mp3", "wind.mp3"]⟩ ∧
      (4 : ℚ) < 4 + 4 := by
  have silent : Scene.soundTime (introScenes.take 1) = 0 := rfl
  have start : (Scene.starts rationalNumber rationalText introScenes)[1]? = some 2 := by
    rw [Scene.starts_getElem? (by decide), silent]
    simp [Scene.addedTime, introScenes]
  have apart : ¬Scene.Aligned rationalNumber rationalText introScenes := by
    intro aligned
    have together := aligned 1 _ rfl rfl
    rw [start, silent] at together
    exact absurd together (by decide)
  exact ⟨by decide, build_intro, rfl, silent, start, apart, rfl, by decide +kernel⟩

theorem build_aligned_intro :
    build (.exact rationalNumber rationalText) (fun _ => .ok 4) blank Scope.root introSequence =
        .ok ⟨introScenes.map (Scene.clip (.exact rationalNumber rationalText)), ["sky.mp3"]⟩ ∧
      ∃ scenes, List.Forall₂ (Describes (.exact rationalNumber rationalText) (fun _ => .ok 4) blank
          Scope.root introSequence) introSequence.pattern scenes ∧
        ["sky.mp3"] = (Scene.sounds scenes).map (·.1) ∧
        ∀ i < scenes.length, (offsets (.exact rationalNumber rationalText) [2, 4])[i]? =
          some (Scene.soundTime (scenes.take i) + Scene.addedTime (scenes.take i)) := by
  obtain ⟨scenes, spare, -, audios, -, begins, custom, -⟩ := build_aligned build_intro
  obtain ⟨rfl, described⟩ := custom rfl
  rw [List.append_nil] at audios
  have durations : (introScenes.map (Scene.clip (.exact rationalNumber rationalText))).map
      (·.duration) = [2, 4] := by
    decide +kernel
  rw [durations] at begins
  exact ⟨build_intro, scenes, described, audios, begins⟩

end Timeline

end Newsreel
