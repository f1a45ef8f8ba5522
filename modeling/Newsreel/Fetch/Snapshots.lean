import Newsreel.Calendar.Elapsed
import Newsreel.Calendar.Reader
import Newsreel.World

/-!
Snapshots: values remembered by job, by name and by time.

A snapshot is a file named for the second in which it was stored; a later one of the same second
takes its place. Files of other names are passed over.
-/

namespace Newsreel

/-- The directory below which snapshots lie. -/
structure Snapshots where
  root : String

namespace Snapshots

/-- Where the snapshots of a name lie. -/
def directory (snapshots : Snapshots) (job name : String) : String :=
  Files.join (Files.join snapshots.root job) name

def stampPattern : String := "%Y-%m-%d_%H-%M-%S"

/-- The time for which a file is named, if it is a snapshot. -/
def stampOf? (fileName : String) : Option Calendar.DateTime :=
  match Files.splitName fileName with
  | (stem, some "json") => (Calendar.readDateTime stem stampPattern).toOption
  | _ => none

/-- What lies in a directory and is a snapshot, the newest first. -/
def ofNames (directory : String) (names : List String) : List (Calendar.DateTime × String) :=
  (names.filterMap fun name =>
    (stampOf? name).map fun stamp => (stamp, Files.join directory name))
  |>.mergeSort fun a b => decide (b.1.rank ≤ a.1.rank)

/-- All snapshots of a name with their times, the newest first. -/
def entries (snapshots : Snapshots) (job name : String) :
    Effect (List (Calendar.DateTime × String)) :=
  Attempt.look fun world =>
    let directory := snapshots.directory job name
    match world.files.list directory with
    | .ok names => .ok (ofNames directory names)
    | .error .notFound => .error (.cacheMiss (job ++ "/" ++ name))
    | .error fault => .error (.file fault)

/-- The snapshot at a place, the newest one being the first. -/
def readLast (snapshots : Snapshots) (job name : String) (place : Nat) : Effect Value := do
  let entries ← snapshots.entries job name
  match (if place = 0 then none else entries[place - 1]?) with
  | some (_, path) => Effect.readValue path
  | none =>
    throw (.cacheMiss (job ++ "/" ++ name ++ " (entry " ++ Text.natural place ++ " of "
      ++ Text.natural entries.length ++ ")"))

/-- The time so many days before another one, to the nearest second. -/
def daysBefore (now : Calendar.DateTime) (days : Float) : Except StepError Calendar.DateTime :=
  let outOfRange := StepError.invalidValue "timedelta" (.daysOutOfRange days)
  match Decimal.nearestInt? (days * 86400) with
  | none => .error outOfRange
  | some offset =>
    match now.secondsBefore? offset with
    | some target => .ok target
    | none => .error outOfRange

/-- The first of the entries that are nearest to a time. -/
def nearest? (target : Calendar.DateTime) :
    List (Calendar.DateTime × String) → Option (Calendar.DateTime × String)
  | [] => none
  | entry :: rest => match nearest? target rest with
    | none => some entry
    | some other =>
      if other.1.secondsApart target < entry.1.secondsApart target then some other else some entry

/-- The snapshot nearest to the time so many days ago. -/
def readClosest (snapshots : Snapshots) (job name : String) (days : Float)
    (now : Calendar.DateTime) : Effect Value := do
  let target ← Attempt.ofExcept (daysBefore now days)
  let entries ← snapshots.entries job name
  match nearest? target entries with
  | some (_, path) => Effect.readValue path
  | none => throw (.cacheMiss (job ++ "/" ++ name))

/-- Remembers a value under a time. -/
def store (snapshots : Snapshots) (job name : String) (value : Value) (time : Calendar.DateTime) :
    Effect String := do
  let directory := snapshots.directory job name
  Effect.onFiles (Files.Work.makeDirectories directory)
  let path := Files.join directory (time.stamp ++ ".json")
  Effect.onFiles (Files.Work.write path (Json.pretty 0 value))
  return path

end Snapshots

end Newsreel
