import Newsreel.Fetch.Run
import Newsreel.Proofs.Attempt

/-!
What looks for snapshots fail with.
-/

namespace Newsreel.Fetch

/-- What a look for a snapshot can fail with: there is none, it cannot be read, it is no document,
or the time that was asked for is out of range. -/
inductive RecallFault (timedelta : Option Float) : StepError → Prop
  | miss (what : String) : RecallFault timedelta (.cacheMiss what)
  | unreadable (fault : FileFault) : RecallFault timedelta (.file fault)
  | malformed (fault : Json.Fault) : RecallFault timedelta (.json fault)
  | outOfRange {days : Float} (asked : timedelta = some days) :
    RecallFault timedelta (.invalidValue "timedelta" (.daysOutOfRange days))

variable {error : StepError}

section Faults

variable (timedelta : Option Float) (snapshots : Snapshots) (job name : String)

theorem readValue_failsAs (path : String) :
    (Effect.readValue path).FailsAs (RecallFault timedelta) := by
  have reads : (Effect.readFile path).FailsAs (RecallFault timedelta) := by
    intro world error failed
    rw [Effect.readFile, Effect.onFiles] at failed
    split at failed <;> cases failed
    exact .unreadable _
  refine reads.bind fun text => ?_
  split
  · exact Attempt.failsAs_pure _
  · exact Attempt.failsAs_throw (.malformed _)

theorem entries_failsAs : (snapshots.entries job name).FailsAs (RecallFault timedelta) := by
  refine Attempt.failsAs_look fun world error failed => ?_
  dsimp only at failed
  split at failed <;> cases failed
  · exact .miss _
  · exact .unreadable _

theorem readLast_failsAs (place : Nat) :
    (snapshots.readLast job name place).FailsAs (RecallFault timedelta) := by
  refine (entries_failsAs timedelta snapshots job name).bind fun entries => ?_
  split
  · exact readValue_failsAs timedelta _
  · exact Attempt.failsAs_throw (.miss _)

theorem daysBefore_error {now : Calendar.DateTime} {days : Float}
    (failed : Snapshots.daysBefore now days = .error error) :
    error = .invalidValue "timedelta" (.daysOutOfRange days) := by
  rw [Snapshots.daysBefore] at failed
  split at failed
  · cases failed
    rfl
  · split at failed <;> cases failed
    rfl

theorem readClosest_failsAs (days : Float) (now : Calendar.DateTime) :
    (snapshots.readClosest job name days now).FailsAs (RecallFault (some days)) := by
  have outside : ∀ error, Snapshots.daysBefore now days = .error error →
      RecallFault (some days) error := by
    intro error failed
    rw [daysBefore_error failed]
    exact .outOfRange rfl
  refine (Attempt.failsAs_ofExcept outside).bind fun target =>
    (entries_failsAs (some days) snapshots job name).bind fun entries => ?_
  split
  · exact readValue_failsAs (some days) _
  · exact Attempt.failsAs_throw (.miss _)

theorem remembered_failsAs (surroundings : Surroundings) (config : JobConfig) (useLast : Nat) :
    (remembered surroundings config name useLast timedelta).FailsAs (RecallFault timedelta) := by
  cases timedelta with
  | none => exact readLast_failsAs none _ _ _ _
  | some days => exact readClosest_failsAs _ _ _ days _

end Faults

end Newsreel.Fetch
