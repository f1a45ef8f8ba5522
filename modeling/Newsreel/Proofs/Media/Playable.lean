import Mathlib.Algebra.Order.Ring.Rat
import Mathlib.Tactic.Linarith
import Mathlib.Tactic.Positivity
import Newsreel.Media.Assemble
import Newsreel.Proofs.Decimal.Text
import Newsreel.Proofs.Media.Timeline

/-!
Which clips can be played.

An image can be shown for a finite time that is not below zero. What is measured of the sounds is
such a time, but what an entry of a pattern adds to it may be anything that reads as a binary64
number: it may take away more than there is, or be no number at all. Nothing else spoils a clip, and
the times at which clips begin never decrease exactly where all clips before the last can be played.
-/

namespace Newsreel

/-- A length of time that is reckoned without rounding, with all that a binary64 number may be. -/
inductive Length where
  | finite (seconds : ℚ)
  | infinite (negative : Bool)
  | undefined
  deriving DecidableEq

namespace Length

/-- Opposite infinities have no sum, and what is undefined stays so. -/
def add : Length → Length → Length
  | .finite x, .finite y => .finite (x + y)
  | .undefined, _ => .undefined
  | _, .undefined => .undefined
  | .infinite x, .infinite y => if x = y then .infinite x else .undefined
  | .infinite x, .finite _ => .infinite x
  | .finite _, .infinite y => .infinite y

instance : Zero Length := ⟨.finite 0⟩

instance : Add Length := ⟨add⟩

theorem finite_add_finite (x y : ℚ) : finite x + finite y = finite (x + y) := rfl

protected theorem add_comm (a b : Length) : a + b = b + a := by
  change add a b = add b a
  rcases a with x | (_ | _) | _ <;> rcases b with y | (_ | _) | _ <;>
    simp [add, add_comm]

protected theorem add_assoc (a b c : Length) : a + b + c = a + (b + c) := by
  change add (add a b) c = add a (add b c)
  rcases a with x | (_ | _) | _ <;> rcases b with y | (_ | _) | _ <;>
    rcases c with z | (_ | _) | _ <;> simp [add, add_assoc]

protected theorem zero_add (a : Length) : 0 + a = a := by
  change add (finite 0) a = a
  cases a <;> simp [add]

instance : AddCommMonoid Length where
  add_assoc := Length.add_assoc
  zero_add := Length.zero_add
  add_zero a := (Length.add_comm a 0).trans (Length.zero_add a)
  add_comm := Length.add_comm
  nsmul := nsmulRec

/-- A sum is finite only if both parts are. -/
theorem finite_of_add {a b : Length} {seconds : ℚ} (sum : a + b = .finite seconds) :
    ∃ x y, a = .finite x ∧ b = .finite y ∧ x + y = seconds := by
  change add a b = .finite seconds at sum
  rcases a with x | (_ | _) | _ <;> rcases b with y | (_ | _) | _ <;> simp [add] at sum ⊢
  exact sum

/-- What a binary64 number is. -/
def ofFloat (x : Float) : Length := match Decimal.parts x with
  | .finite .. => .finite (Timeline.rational x)
  | .infinite negative => .infinite negative
  | .nan => .undefined

/-- The length that a number states. -/
def ofNumber (n : Number) : Length := ofFloat n.toFloat

/-- The length that a text states. -/
def read? (text : String) : Option Length := (Decimal.read? text).map ofFloat

/-- A length for which an image can be shown. -/
def IsPlayable (length : Length) : Prop := ∃ seconds : ℚ, 0 ≤ seconds ∧ length = .finite seconds

theorem isPlayable_finite_iff {seconds : ℚ} : (finite seconds).IsPlayable ↔ 0 ≤ seconds := by
  constructor
  · rintro ⟨same, nonNegative, stated⟩
    cases stated
    exact nonNegative
  · exact fun nonNegative => ⟨seconds, nonNegative, rfl⟩

theorem isPlayable_ofFloat_iff {x : Float} : (ofFloat x).IsPlayable ↔
    Decimal.isFinite x = true ∧ Decimal.isNonNegative x = true := by
  cases whole : Decimal.parts x with
  | nan | infinite negative => simp [ofFloat, Decimal.isFinite, whole, IsPlayable]
  | finite negative mantissa exponent =>
    have unit : (0 : ℚ) < 2 ^ exponent.toNat / 2 ^ (-exponent).toNat := by positivity
    have value : Timeline.rational x = (if negative then -1 else 1) * mantissa *
        (2 ^ exponent.toNat / 2 ^ (-exponent).toNat) := by
      simp only [Timeline.rational, whole]
      ring
    have stated : ofFloat x = .finite (Timeline.rational x) := by simp only [ofFloat, whole]
    rw [stated, isPlayable_finite_iff, value, mul_nonneg_iff_of_pos_right unit]
    cases negative with
    | false => simp [Decimal.isFinite, Decimal.isNonNegative, whole]
    | true => simp [Decimal.isFinite, Decimal.isNonNegative, whole]

end Length

/-- Lengths that are read as binary64 numbers and added without rounding. -/
def unrounded : Reckoning Length := .exact Length.ofNumber Length.read?

/-- What is measured, as it is. -/
def asMeasured (measure : String → Except StepError Float) (path : String) :
    Except StepError Length :=
  (measure path).map Length.ofFloat

theorem asMeasured_ok_iff {measure : String → Except StepError Float} {path : String}
    {length : Length} : asMeasured measure path = .ok length ↔
      ∃ x, measure path = .ok x ∧ Length.ofFloat x = length := by
  cases found : measure path <;> simp [asMeasured, found, Except.map]

namespace Timeline

/-! ## Other reckonings -/

/-- What one reckoning can read and measure, another one can as well. -/
structure Covers {τ σ : Type} (one : Reckoning τ) (measure : String → Except StepError τ)
    (other : Reckoning σ) (gauge : String → Except StepError σ) : Prop where
  reads : ∀ text x, one.read? text = some x → ∃ y, other.read? text = some y
  measures : ∀ path x, measure path = .ok x → ∃ y, gauge path = .ok y

theorem covers_unrounded (measure : String → Except StepError Float) :
    Covers binary64 measure unrounded (asMeasured measure) where
  reads _ x read := ⟨Length.ofFloat x, congrArg (Option.map Length.ofFloat) read⟩
  measures _ x measured := ⟨Length.ofFloat x, asMeasured_ok_iff.mpr ⟨x, measured, rfl⟩⟩

section Covers

variable {τ σ : Type} {one : Reckoning τ} {measure : String → Except StepError τ}
  {other : Reckoning σ} {gauge : String → Except StepError σ} {context : Context} {scope : Scope}
  {spec : SequenceSpec}

theorem Covers.seconds (covers : Covers one measure other gauge) {value : Value} {x : τ}
    (stated : seconds one value = .ok x) : ∃ y, seconds other value = .ok y := by
  cases value with
  | number n => exact ⟨other.ofNumber n, rfl⟩
  | string s =>
    cases read : one.read? (Text.trim s) with
    | none => simp [Timeline.seconds, read] at stated
    | some _ =>
      obtain ⟨y, also⟩ := covers.reads _ _ read
      exact ⟨y, by simp [Timeline.seconds, also]⟩
  | null | bool _ | array _ | object _ => cases stated

theorem Covers.addedBy (covers : Covers one measure other gauge) {timeDiff : Option Value} {x : τ}
    (stated : addedBy one context scope timeDiff = .ok x) :
    ∃ y, addedBy other context scope timeDiff = .ok y := by
  cases timeDiff with
  | none => exact ⟨other.zero, rfl⟩
  | some template =>
    obtain ⟨value, formatted, read⟩ := Outcome.bind_ok_iff.mp stated
    obtain ⟨y, also⟩ := covers.seconds read
    exact ⟨y, Outcome.bind_ok_iff.mpr ⟨value, formatted, also⟩⟩

theorem Covers.withSound (covers : Covers one measure other gauge) {image : String} {x : τ} (y : σ)
    {name : Option Value} {clip : Clip τ} {audios : List String}
    (success : withSound one measure context scope spec image x name = .ok (clip, audios)) :
    ∃ duration, withSound other gauge context scope spec image y name =
      .ok (⟨clip.image, duration⟩, audios) := by
  cases name with
  | none =>
    cases success
    exact ⟨y, rfl⟩
  | some name =>
    obtain ⟨path, found, success⟩ := Outcome.bind_ok_iff.mp success
    obtain ⟨length, measured, success⟩ := Outcome.bind_ok_iff.mp success
    cases success
    obtain ⟨also, gauged⟩ := covers.measures path length measured
    exact ⟨other.add y also, Outcome.bind_ok_iff.mpr ⟨path, found,
      Outcome.bind_ok_iff.mpr ⟨also, gauged, rfl⟩⟩⟩

theorem Covers.entry (covers : Covers one measure other gauge) {first : PatternEntry}
    {clip : Clip τ} {audios : List String}
    (success : entry one measure context scope spec first = .ok (clip, audios)) :
    ∃ duration, entry other gauge context scope spec first =
      .ok (⟨clip.image, duration⟩, audios) := by
  rw [entry_eq] at success ⊢
  obtain ⟨image, named, success⟩ := Outcome.bind_ok_iff.mp success
  obtain ⟨added, stated, success⟩ := Outcome.bind_ok_iff.mp success
  obtain ⟨also, readable⟩ := covers.addedBy stated
  obtain ⟨duration, made⟩ := covers.withSound also success
  exact ⟨duration, Outcome.bind_ok_iff.mpr ⟨image, named,
    Outcome.bind_ok_iff.mpr ⟨also, readable, made⟩⟩⟩

/-- A timeline reckoned otherwise: the same images and the same audio files. -/
structure Resembles (timeline : Timeline τ) (likeness : Timeline σ) : Prop where
  images : likeness.clips.map (·.image) = timeline.clips.map (·.image)
  audios : likeness.audios = timeline.audios

theorem Covers.entries (covers : Covers one measure other gauge) {pattern : List PatternEntry}
    {timeline : Timeline τ}
    (success : entries one measure context scope spec pattern = .ok timeline) :
    ∃ likeness, entries other gauge context scope spec pattern = .ok likeness ∧
      timeline.Resembles likeness := by
  induction pattern generalizing timeline with
  | nil =>
    cases success
    exact ⟨⟨[], []⟩, rfl, rfl, rfl⟩
  | cons first rest ih =>
    obtain ⟨⟨clip, audios⟩, here, success⟩ := Outcome.bind_ok_iff.mp success
    obtain ⟨later, behind, success⟩ := Outcome.bind_ok_iff.mp success
    cases success
    obtain ⟨duration, also⟩ := covers.entry here
    obtain ⟨likeness, following, same⟩ := ih behind
    refine ⟨⟨⟨clip.image, duration⟩ :: likeness.clips, audios ++ likeness.audios⟩, ?_, ?_, ?_⟩
    · exact Outcome.bind_ok_iff.mpr ⟨_, also, Outcome.bind_ok_iff.mpr ⟨_, following, rfl⟩⟩
    · simp [same.images]
    · simp [same.audios]

theorem Covers.measured (covers : Covers one measure other gauge) {templates : List Value}
    {audios : List (String × τ)}
    (success : measured measure context scope templates = .ok audios) :
    ∃ gauged, measured gauge context scope templates = .ok gauged ∧
      gauged.map (·.1) = audios.map (·.1) := by
  induction templates generalizing audios with
  | nil =>
    cases success
    exact ⟨[], rfl, rfl⟩
  | cons template rest ih =>
    obtain ⟨path, formatted, success⟩ := Outcome.bind_ok_iff.mp success
    obtain ⟨length, lasts, success⟩ := Outcome.bind_ok_iff.mp success
    obtain ⟨later, behind, success⟩ := Outcome.bind_ok_iff.mp success
    cases success
    obtain ⟨also, gauges⟩ := covers.measures path length lasts
    obtain ⟨gauged, following, same⟩ := ih behind
    refine ⟨(path, also) :: gauged, ?_, by simp [same]⟩
    exact Outcome.bind_ok_iff.mpr ⟨path, formatted, Outcome.bind_ok_iff.mpr ⟨also, gauges,
      Outcome.bind_ok_iff.mpr ⟨gauged, following, rfl⟩⟩⟩

theorem pairClips_resemble {templates : List Value} {durations : List τ} {others : List σ}
    {clips : List (Clip τ)} (same : others.length = durations.length)
    (success : pairClips context scope templates durations = .ok clips) :
    ∃ likeness, pairClips context scope templates others = .ok likeness ∧
      likeness.map (·.image) = clips.map (·.image) := by
  induction templates generalizing durations others clips with
  | nil =>
    cases success
    exact ⟨[], rfl, rfl⟩
  | cons template rest ih =>
    cases durations with
    | nil =>
      obtain rfl := List.length_eq_zero_iff.mp same
      cases success
      exact ⟨[], rfl, rfl⟩
    | cons duration durations =>
      obtain ⟨also, others, rfl⟩ := List.exists_cons_of_length_eq_add_one same
      obtain ⟨image, formatted, success⟩ := Outcome.bind_ok_iff.mp success
      obtain ⟨later, behind, success⟩ := Outcome.bind_ok_iff.mp success
      cases success
      obtain ⟨likeness, following, images⟩ := ih (by simpa using same) behind
      exact ⟨⟨image, also⟩ :: likeness, Outcome.bind_ok_iff.mpr ⟨image, formatted,
        Outcome.bind_ok_iff.mpr ⟨likeness, following, rfl⟩⟩, by simp [images]⟩

theorem Covers.successive (covers : Covers one measure other gauge) {timeline : Timeline τ}
    (success : successive measure context scope spec = .ok timeline) :
    ∃ likeness, successive gauge context scope spec = .ok likeness ∧
      timeline.Resembles likeness := by
  obtain ⟨audios, measured, success⟩ := Outcome.bind_ok_iff.mp success
  obtain ⟨gauged, also, same⟩ := covers.measured measured
  have count : gauged.length = audios.length := by simpa using congrArg List.length same
  split at success
  · cases success
  · rename_i enough
    obtain ⟨clips, paired, success⟩ := Outcome.bind_ok_iff.mp success
    cases success
    have counts : (gauged.map (·.2)).length = (audios.map (·.2)).length := by simp [count]
    obtain ⟨likeness, following, images⟩ := pairClips_resemble counts paired
    refine ⟨⟨likeness, gauged.map (·.1)⟩, ?_, images, same⟩
    rw [← count] at enough
    exact Outcome.bind_ok_iff.mpr ⟨gauged, also, by
      rw [if_neg enough]
      exact Outcome.bind_ok_iff.mpr ⟨likeness, following, rfl⟩⟩

/-- Whether a timeline can be built, and of what, does not depend on how its lengths are added. -/
theorem Covers.build (covers : Covers one measure other gauge) {timeline : Timeline τ}
    (built : build one measure context scope spec = .ok timeline) :
    ∃ likeness, build other gauge context scope spec = .ok likeness ∧
      timeline.Resembles likeness := by
  rw [Timeline.build] at built ⊢
  split at built
  · exact covers.successive built
  · exact covers.entries built

end Covers

end Timeline

/-! ## Scenes that can be played -/

namespace Scene

/-- What is added to the sound is a number of seconds, and takes away no more than the sound lasts.
-/
def Fits (scene : Scene Length) : Prop :=
  ∃ added heard : ℚ, scene.added = .finite added ∧ soundTime [scene] = .finite heard ∧
    -heard ≤ added

theorem duration_clip (scene : Scene Length) :
    (scene.clip unrounded).duration = scene.added + soundTime [scene] := by
  obtain ⟨image, added, _ | ⟨path, length⟩⟩ := scene
  · exact (add_zero added).symm
  · exact congrArg (added + ·) (add_zero length).symm

/-- A scene can be played exactly if its sound makes up for what is taken away. -/
theorem isPlayable_clip_iff {scene : Scene Length} :
    (scene.clip unrounded).duration.IsPlayable ↔ scene.Fits := by
  rw [duration_clip]
  constructor
  · rintro ⟨seconds, nonNegative, sum⟩
    obtain ⟨added, heard, adds, sounds, rfl⟩ := Length.finite_of_add sum
    exact ⟨added, heard, adds, sounds, by linarith⟩
  · rintro ⟨added, heard, adds, sounds, enough⟩
    exact ⟨added + heard, by linarith, by rw [adds, sounds, Length.finite_add_finite]⟩

/-- With nothing added, a scene is as long as its sound. -/
theorem fits_of_nothing_added {scene : Scene Length} (nothing : scene.added = 0)
    (measured : ∀ sound ∈ sounds [scene], sound.2.IsPlayable) : scene.Fits := by
  rw [← isPlayable_clip_iff, duration_clip, nothing, zero_add]
  obtain ⟨image, added, _ | sound⟩ := scene
  · exact ⟨0, le_rfl, rfl⟩
  · obtain ⟨seconds, nonNegative, lasts⟩ := measured sound List.mem_cons_self
    refine ⟨seconds, nonNegative, ?_⟩
    rw [← lasts]
    exact add_zero sound.2

end Scene

/-! ## Where clips begin -/

/-- Finite times of which none lies before an earlier one. -/
def Length.Ascend (times : List Length) : Prop :=
  ∃ seconds : List ℚ, times = seconds.map .finite ∧ seconds.Pairwise (· ≤ ·)

namespace Length

theorem ascend_cons_cons_iff {start : ℚ} {time : Length} {times : List Length} :
    Ascend (.finite start :: time :: times) ↔
      (∃ next : ℚ, start ≤ next ∧ time = .finite next) ∧ Ascend (time :: times) := by
  constructor
  · rintro ⟨_ | ⟨first, _ | ⟨next, later⟩⟩, same, ordered⟩
    · cases same
    · cases same
    · cases same
      obtain ⟨least, ordered⟩ := List.pairwise_cons.mp ordered
      exact ⟨⟨next, least next List.mem_cons_self, rfl⟩, next :: later, rfl, ordered⟩
  · rintro ⟨⟨next, after, rfl⟩, _ | ⟨_, later⟩, same, ordered⟩
    · cases same
    · cases same
      refine ⟨start :: next :: later, rfl, List.pairwise_cons.mpr ⟨fun time member => ?_, ordered⟩⟩
      rcases List.mem_cons.mp member with rfl | behind
      · exact after
      · exact after.trans ((List.pairwise_cons.mp ordered).1 time behind)

/-- What is added to a time leads to no earlier one exactly if it can be played. -/
theorem later_iff {start : ℚ} {duration : Length} :
    (∃ next : ℚ, start ≤ next ∧ .finite start + duration = .finite next) ↔ duration.IsPlayable := by
  constructor
  · rintro ⟨next, after, sum⟩
    obtain ⟨_, seconds, same, rfl, rfl⟩ := finite_of_add sum
    cases same
    exact ⟨seconds, by linarith, rfl⟩
  · rintro ⟨seconds, nonNegative, rfl⟩
    exact ⟨start + seconds, by linarith, finite_add_finite start seconds⟩

end Length

namespace Timeline

/-- The times at which clips begin never decrease exactly if all clips but the last can be played.
-/
theorem ascend_offsetsFrom_iff (elapsed : ℚ) (durations : List Length) :
    Length.Ascend (offsetsFrom unrounded (.finite elapsed) durations) ↔
      ∀ duration ∈ durations.dropLast, duration.IsPlayable := by
  induction durations generalizing elapsed with
  | nil => exact iff_of_true ⟨[], rfl, .nil⟩ nofun
  | cons duration rest ih =>
    cases rest with
    | nil => exact iff_of_true ⟨[elapsed], rfl, List.pairwise_singleton _ _⟩ nofun
    | cons following rest =>
      rw [List.dropLast_cons_cons, List.forall_mem_cons, ← @Length.later_iff elapsed]
      -- Only from a finite time on do the later ones make sense, so the first step comes first.
      refine Length.ascend_cons_cons_iff.trans (and_congr_right ?_)
      rintro ⟨next, -, sum⟩
      have moved : unrounded.add (.finite elapsed) duration = .finite next := sum
      rw [moved]
      exact ih next

theorem ascend_offsets_iff (clips : List (Clip Length)) :
    Length.Ascend (offsets unrounded (clips.map (·.duration))) ↔
      ∀ clip ∈ clips.dropLast, clip.duration.IsPlayable := by
  refine (ascend_offsetsFrom_iff 0 _).trans ?_
  rw [← List.map_dropLast, List.forall_mem_map]

section Build

variable {measure : String → Except StepError Float} {context : Context} {scope : Scope}
  {spec : SequenceSpec}

/-- Every timeline without rounding is made of scenes, for each entry of a pattern one, or without
added time, and with sounds as they are measured. -/
theorem build_scenes {timeline : Timeline Length} {gauge : String → Except StepError Length}
    (built : build unrounded gauge context scope spec = .ok timeline) :
    ∃ scenes, timeline.clips = scenes.map (Scene.clip unrounded) ∧
      (spec.kind = .custom →
        List.Forall₂ (Describes unrounded gauge context scope spec) spec.pattern scenes) ∧
      (spec.kind = .successively → ∀ scene ∈ scenes, scene.added = 0) ∧
      ∀ sound ∈ Scene.sounds scenes, gauge sound.1 = .ok sound.2 := by
  rw [build] at built
  cases kind : spec.kind with
  | successively =>
    rw [kind] at built
    obtain ⟨scenes, spare, clips, -, lasts, -, plain, -⟩ := successive_ok _ _ built
    refine ⟨scenes, clips, fun custom => ?_, fun _ scene member => (plain scene member).1, lasts⟩
    cases custom
  | custom =>
    rw [kind] at built
    obtain ⟨scenes, described, clips, -, lasts⟩ := entries_ok built
    refine ⟨scenes, clips, fun _ => described, fun successively => ?_, lasts⟩
    cases successively

/-- The clips of a timeline, were they reckoned without rounding: one can be played exactly if its
sound makes up for what its entry takes away, as it does wherever nothing is added. The clips begin
one after the other exactly if all but the last can be played. -/
theorem build_playable {timeline : Timeline Float}
    (measures : ∀ path length, measure path = .ok length →
      Decimal.isFinite length = true ∧ Decimal.isNonNegative length = true)
    (built : build binary64 measure context scope spec = .ok timeline) :
    ∃ likeness scenes, build unrounded (asMeasured measure) context scope spec = .ok likeness ∧
      timeline.Resembles likeness ∧ likeness.clips = scenes.map (Scene.clip unrounded) ∧
      (spec.kind = .custom → List.Forall₂
        (Describes unrounded (asMeasured measure) context scope spec) spec.pattern scenes) ∧
      (spec.kind = .successively → ∀ scene ∈ scenes, scene.added = 0) ∧
      (∀ scene ∈ scenes, ((scene.clip unrounded).duration.IsPlayable ↔ scene.Fits) ∧
        (scene.added = 0 → scene.Fits)) ∧
      (Length.Ascend (offsets unrounded (likeness.clips.map (·.duration))) ↔
        ∀ clip ∈ likeness.clips.dropLast, clip.duration.IsPlayable) := by
  -- The same sequence is built without rounding; its scenes tell what becomes of each clip.
  obtain ⟨likeness, reckoned, resembles⟩ := (covers_unrounded measure).build built
  obtain ⟨scenes, clips, custom, successively, lasts⟩ := build_scenes reckoned
  refine ⟨likeness, scenes, reckoned, resembles, clips, custom, successively, ?_,
    ascend_offsets_iff likeness.clips⟩
  intro scene member
  refine ⟨Scene.isPlayable_clip_iff, fun nothing => ?_⟩
  refine Scene.fits_of_nothing_added nothing fun sound heard => ?_
  have among : sound ∈ Scene.sounds scenes :=
    List.mem_filterMap.mpr ⟨scene, member, by simpa [Scene.sounds] using heard⟩
  obtain ⟨x, measured, same⟩ := asMeasured_ok_iff.mp (lasts sound among)
  rw [← same]
  exact Length.isPlayable_ofFloat_iff.mpr (measures sound.1 x measured)

end Build

/-- Every audio file lasts four seconds. -/
def fourSeconds (_ : String) : Except StepError Float := .ok 4

theorem fourSeconds_measures (path : String) (length : Float)
    (measured : fourSeconds path = .ok length) :
    Decimal.isFinite length = true ∧ Decimal.isNonNegative length = true := by
  cases measured
  decide +kernel

theorem build_playable_intro :
    (∀ path length, fourSeconds path = .ok length →
      Decimal.isFinite length = true ∧ Decimal.isNonNegative length = true) ∧
      ∃ (timeline : Timeline Float) (likeness : Timeline Length) (scenes : List (Scene Length)),
        build binary64 fourSeconds blank Scope.root introSequence = .ok timeline ∧
        build unrounded (asMeasured fourSeconds) blank Scope.root introSequence = .ok likeness ∧
        timeline.Resembles likeness ∧ likeness.clips = scenes.map (Scene.clip unrounded) ∧
        (∀ scene ∈ scenes, (scene.clip unrounded).duration.IsPlayable ↔ scene.Fits) ∧
        likeness.clips.map (·.duration) = [.finite 2, .finite 4] := by
  obtain ⟨timeline, built⟩ : ∃ timeline,
      build binary64 fourSeconds blank Scope.root introSequence = .ok timeline := ⟨_, rfl⟩
  obtain ⟨likeness, scenes, reckoned, resembles, clips, -, -, fits, -⟩ :=
    build_playable fourSeconds_measures built
  refine ⟨fourSeconds_measures, timeline, likeness, scenes, built, reckoned, resembles, clips,
    fun scene member => (fits scene member).1, ?_⟩
  cases reckoned
  decide +kernel

/-- A step that shows three images, the second one for a stated time. -/
def middleStep (time : Value) : StepConfig where
  type := "sequence"
  params := [
    ("images", .object [("sun", .string "sun.png"), ("rain", .string "rain.png"),
      ("wind", .string "wind.png")]),
    ("sequence", .object [("type", .string "custom"), ("pattern", .array [
      .object [("image", .string "sun"), ("time_diff", .ofNat 2)],
      .object [("image", .string "rain"), ("time_diff", time)],
      .object [("image", .string "wind"), ("time_diff", .ofNat 4)]])])]

/-- The sequence of such a step. -/
def middleSpec (time : Value) : SequenceSpec where
  kind := .custom
  images := [("sun", .string "sun.png"), ("rain", .string "rain.png"),
    ("wind", .string "wind.png")]
  audios := []
  pattern := [⟨.string "sun", none, some (.ofNat 2)⟩, ⟨.string "rain", none, some time⟩,
    ⟨.string "wind", none, some (.ofNat 4)⟩]
  transitions := defaultTransition
  outTime := none
  key := defaultSequenceKey

/-- The lengths and the beginnings of clips in the texts that the encoder is told. -/
def told (timeline : Timeline Float) : List String × List String :=
  (timeline.clips.map fun clip => Media.secondsText clip.duration,
    (offsets binary64 (timeline.clips.map (·.duration))).map Media.secondsText)

/-- A sequence is compiled whatever its entries add, and an image is shown for less than no time,
with the next one beginning before it, or for a time that is no number. -/
theorem middle_unplayable :
    (∀ path length, fourSeconds path = .ok length →
      Decimal.isFinite length = true ∧ Decimal.isNonNegative length = true) ∧
    (SequenceSpec.compile .builtin (middleStep (.ofInt (-3))) = .ok (middleSpec (.ofInt (-3))) ∧
      ∃ (timeline : Timeline Float) (likeness : Timeline Length),
        build binary64 fourSeconds blank Scope.root (middleSpec (.ofInt (-3))) = .ok timeline ∧
        timeline.told = (["2", "-3", "4"], ["0", "2", "-1"]) ∧
        build unrounded (asMeasured fourSeconds) blank Scope.root (middleSpec (.ofInt (-3))) =
          .ok likeness ∧
        likeness.clips.map (·.duration) = [.finite 2, .finite (-3), .finite 4] ∧
        (∃ clip ∈ likeness.clips, ¬clip.duration.IsPlayable) ∧
        ¬Length.Ascend (offsets unrounded (likeness.clips.map (·.duration)))) ∧
    SequenceSpec.compile .builtin (middleStep (.string "nan")) = .ok (middleSpec (.string "nan")) ∧
      ∃ timeline : Timeline Float,
        build binary64 fourSeconds blank Scope.root (middleSpec (.string "nan")) = .ok timeline ∧
        timeline.told = (["2", "NaN", "4"], ["0", "2", "NaN"]) := by
  have short : ¬(Length.finite (-3)).IsPlayable := by
    rw [Length.isPlayable_finite_iff]
    decide +kernel
  obtain ⟨likeness, reckoned, durations⟩ : ∃ likeness, build unrounded (asMeasured fourSeconds)
      blank Scope.root (middleSpec (.ofInt (-3))) = .ok likeness ∧
      likeness.clips.map (·.duration) = [.finite 2, .finite (-3), .finite 4] :=
    ⟨_, rfl, by decide +kernel⟩
  refine ⟨fourSeconds_measures, ⟨rfl, _, likeness, rfl, by decide +kernel, reckoned, durations, ?_,
    ?_⟩, rfl, _, rfl, by decide +kernel⟩
  · have among : .finite (-3) ∈ likeness.clips.map (·.duration) := by simp [durations]
    obtain ⟨clip, member, lasts⟩ := List.mem_map.mp among
    exact ⟨clip, member, by rwa [lasts]⟩
  · rw [durations]
    intro ascend
    exact short ((ascend_offsetsFrom_iff 0 _).mp ascend _ (by simp))

end Timeline

end Newsreel
