import Newsreel.Media.Programs
import Newsreel.Proofs.Fetch.Recall
import Newsreel.Proofs.Run.Pieces

/-!
What the pieces of fetches and sequences fail with.

Files, servers, snapshots and templates report bare causes. What the encoder reports is its own
affair, and that of a run: whatever it can report besides bare causes, a sequence can fail with.
-/

namespace Newsreel

open Outcome

variable {fault : StepError → Prop} (covers : ∀ error, error.isBare = true → fault error)

include covers

theorem Effect.joins_failsAs : Joins fun work => work.FailsAs fault where
  ofExcept bare := Attempt.failsAs_ofExcept (bare.failsAs covers)
  bind := Attempt.FailsAs.bind

theorem Effect.onFiles_failsAs {α : Type} (work : Files.Work α) : (onFiles work).FailsAs fault := by
  intro world error failed
  rw [onFiles] at failed
  split at failed <;> cases failed
  exact covers _ rfl

theorem Effect.send_failsAs (surroundings : Surroundings) (request : Request) :
    (send surroundings request).FailsAs fault := by
  refine Attempt.FailsAs.within (fun log => ?_) _ _
  rw [Web.send]
  split
  · dsimp only
    split
    · exact (bare_error rfl).failsAs covers
    · next response _ => exact (response.value_bare request).failsAs covers
  · exact (bare_error rfl).failsAs covers

omit covers in
theorem Fetch.RecallFault.isBare {timedelta : Option Float} {error : StepError}
    (fault : RecallFault timedelta error) : error.isBare = true := by
  cases fault <;> rfl

theorem Fetch.fixture_failsAs (config : JobConfig) (name : String) :
    (fixture config name).FailsAs fault :=
  (readValue_failsAs none _).mono fun error known => covers error known.isBare

theorem Fetch.pieces_failsAs (surroundings : Surroundings) (config : JobConfig)
    (names : List String) :
    Pieces (fun work => work.FailsAs fault) surroundings config names where
  send := Effect.send_failsAs covers surroundings
  fixture name _ := fixture_failsAs covers config name
  remembered name _ useLast timedelta :=
    (remembered_failsAs timedelta name surroundings config useLast).mono
      fun error known => covers error known.isBare

/-! Encoders. -/

/-- The programs of a machine fail by how they are started, how they end and what they print. -/
theorem Programs.run_failsAs (programs : Programs) (start : Start) :
    (programs.run start).FailsAs fault := by
  intro log
  rw [run]
  split
  · split
    · exact failsAs_ok _
    · exact (bare_error rfl).failsAs covers
  · exact (bare_error rfl).failsAs covers

theorem Programs.audioDuration_failsAs (programs : Programs) (path : String) :
    FailsAs fault (programs.encoder.audioDuration path) := by
  have measures : (programs.audioDuration path).FailsAs fault := by
    refine (run_failsAs covers programs _).bind fun ending => ?_
    split
    · exact Attempt.failsAs_throw (covers _ rfl)
    · dsimp only
      split
      · exact Attempt.failsAs_pure _
      · exact Attempt.failsAs_throw (covers _ rfl)
  exact measures []

theorem Programs.encode_failsAs (programs : Programs) (before : List EncoderCall)
    (call : EncoderCall) : FailsAs fault (programs.encoder.run before call) := by
  have encodes : (programs.encode call.invocation).FailsAs fault := by
    refine (run_failsAs covers programs _).bind fun ending => ?_
    split
    · exact Attempt.failsAs_throw (covers _ rfl)
    · exact Attempt.failsAs_pure _
  exact encodes []

section Encoder

variable {surroundings : Surroundings}
  (measuring : ∀ path, FailsAs fault (surroundings.encoder.audioDuration path))

include measuring

theorem Media.timeline_failsAs (context : Context) (scope : Scope) (spec : SequenceSpec) :
    FailsAs fault (timeline surroundings context scope spec) := by
  refine (Timeline.build_failsAs context scope covers measuring binary64 spec).bind
    fun timeline => ?_
  split
  · exact (bare_error rfl).failsAs covers
  · exact failsAs_ok _

theorem Media.pieces_failsAs
    (running : ∀ before call, FailsAs fault (surroundings.encoder.run before call))
    (context : Context) : Pieces (fun work => work.FailsAs fault) surroundings context where
  lays scope spec := Attempt.failsAs_ofExcept (timeline_failsAs covers measuring context scope spec)
  makesTemp := Effect.onFiles_failsAs covers _
  makesOutput _ := Effect.onFiles_failsAs covers _
  writesList _ := Effect.onFiles_failsAs covers _
  joins world := running world.calls ⟨_, world.files⟩
  shows _ _ _ _ world := running world.calls ⟨_, world.files⟩

end Encoder

end Newsreel
