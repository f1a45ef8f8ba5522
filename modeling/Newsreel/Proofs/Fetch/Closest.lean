import Newsreel.Proofs.Attempt
import Newsreel.Proofs.Calendar.Elapsed
import Newsreel.Proofs.Calendar.Order
import Newsreel.Proofs.Fetch.Snapshots

/-!
Which snapshot is read for a time so many days ago.

Of the snapshots, the newest first, the first is read of which no other one is nearer in whole
seconds. A time that is asked for to the nanosecond lies between two whole seconds, and the decimal
places that do not count let the second behind it be taken for as near as the second before it.
-/

namespace Newsreel.Snapshots

open Calendar (DateTime)

variable {snapshots : Snapshots} {job name : String} {world : World} {target : DateTime}
  {items found : List (DateTime × String)} {entry other : DateTime × String}

/-- The nearest entry comes before all others that are as near, and those before it are farther
off. -/
theorem nearest?_split (chosen : nearest? target items = some entry) :
    ∃ front back, items = front ++ entry :: back ∧
      (∀ other ∈ front, entry.1.secondsApart target < other.1.secondsApart target) ∧
      ∀ other ∈ back, entry.1.secondsApart target ≤ other.1.secondsApart target := by
  induction items generalizing entry with
  | nil => cases chosen
  | cons first rest ih =>
    rw [nearest?] at chosen
    split at chosen
    · next none =>
      cases chosen
      cases rest with
      | nil => exact ⟨[], [], rfl, List.forall_mem_nil _, List.forall_mem_nil _⟩
      | cons second rest =>
        rw [nearest?] at none
        split at none
        · cases none
        · split at none <;> cases none
    · next later found =>
      obtain ⟨front, back, rfl, farther, asFar⟩ := ih found
      split at chosen
      · next nearer =>
        cases chosen
        exact ⟨first :: front, back, rfl, List.forall_mem_cons.mpr ⟨nearer, farther⟩, asFar⟩
      · next notNearer =>
        cases chosen
        refine ⟨[], front ++ later :: back, rfl, List.forall_mem_nil _, fun other listed => ?_⟩
        rcases List.mem_append.mp listed with before | behind
        · exact (Nat.not_lt.mp notNearer).trans (farther other before).le
        · rcases List.mem_cons.mp behind with rfl | behind
          · exact Nat.not_lt.mp notNearer
          · exact (Nat.not_lt.mp notNearer).trans (asFar other behind)

theorem exists_nearest? (nonempty : items ≠ []) : ∃ entry, nearest? target items = some entry := by
  cases items with
  | nil => exact absurd rfl nonempty
  | cons first rest =>
    rw [nearest?]
    split
    · exact ⟨_, rfl⟩
    · split <;> exact ⟨_, rfl⟩

/-- Entries are listed from the newest one on. -/
theorem descending_of_entries {after : World}
    (listed : snapshots.entries job name world = (.ok found, after)) :
    found.Pairwise fun newer older => older.1.rank ≤ newer.1.rank := by
  rw [Snapshots.entries, Attempt.look] at listed
  dsimp only at listed
  split at listed <;> cases listed
  exact Calendar.pairwise_descending (fun entry : DateTime × String => entry.1.rank) _

/-- No entry is nearer in whole seconds than the one that is read, and of those that are as near it
is the newest. -/
theorem nearest?_least {after : World}
    (listed : snapshots.entries job name world = (.ok found, after))
    (chosen : nearest? target found = some entry) (among : other ∈ found) :
    entry.1.secondsApart target ≤ other.1.secondsApart target ∧
      (other.1.secondsApart target = entry.1.secondsApart target →
        other.1.rank ≤ entry.1.rank) := by
  have descending := descending_of_entries listed
  obtain ⟨front, back, rfl, farther, asFar⟩ := nearest?_split chosen
  rcases List.mem_append.mp among with before | behind
  · have less := farther other before
    exact ⟨less.le, fun same => absurd same (by omega)⟩
  · rcases List.mem_cons.mp behind with rfl | behind
    · exact ⟨Nat.le_refl _, fun _ => Int.le_refl _⟩
    · refine ⟨asFar other behind, fun _ => ?_⟩
      exact (List.pairwise_cons.mp (List.pairwise_append.mp descending).2.1).1 other behind

theorem daysBefore_ok {days : Float} {offset : Int} {now : DateTime}
    (rounded : Decimal.nearestInt? (days * 86400) = some offset)
    (inRange : now.secondsBefore? offset = some target) : daysBefore now days = .ok target := by
  simp only [daysBefore, rounded, inRange]

theorem readClosest_run {days : Float} {now : DateTime} (inRange : daysBefore now days = .ok target)
    (listed : snapshots.entries job name world = (.ok found, world))
    (chosen : nearest? target found = some entry) :
    snapshots.readClosest job name days now world = Effect.readValue entry.2 world := by
  have stated : Attempt.ofExcept (daysBefore now days) world = (.ok target, world) := by
    rw [inRange]
    rfl
  rw [readClosest, Attempt.bind_run_ok stated, Attempt.bind_run_ok listed, chosen]

/-- What is read for a time so many days before a time to the nanosecond, the days rounded to whole
seconds: of equally near snapshots the newest. A snapshot that is not read is nearer just where the
one that is read lies behind that time and mirrors it over the middle of the second, of which less
than half has passed. -/
theorem readClosest_nearest {days : Float} {offset : Int} {now : DateTime}
    (rounded : Decimal.nearestInt? (days * 86400) = some offset)
    (usual : now.clock.nanosecond < 1000000000)
    (inRange : now.secondsBefore? offset = some target)
    (listed : snapshots.entries job name world = (.ok found, world)) (nonempty : found ≠ [])
    (whole : ∀ entry ∈ found, entry.1.clock.nanosecond = 0) :
    target.seconds = now.seconds - offset ∧ target.clock.nanosecond = now.clock.nanosecond ∧
      ∃ entry ∈ found,
        snapshots.readClosest job name days now world = Effect.readValue entry.2 world ∧
        ∀ other ∈ found,
          (other.1.apart target = entry.1.apart target → other.1.rank ≤ entry.1.rank) ∧
          (other.1.apart target < entry.1.apart target ↔
            target.seconds < entry.1.seconds ∧
              entry.1.seconds + other.1.seconds = 2 * target.seconds + 1 ∧
              0 < target.clock.nanosecond ∧ 2 * target.clock.nanosecond < 1000000000) := by
  obtain ⟨seconds, nanosecond⟩ := DateTime.seconds_secondsBefore? usual inRange
  have usualTarget : target.clock.nanosecond < 1000000000 := by omega
  have within := daysBefore_ok rounded inRange
  obtain ⟨entry, chosen⟩ : ∃ entry, nearest? target found = some entry := exists_nearest? nonempty
  obtain ⟨front, back, split, -, -⟩ := nearest?_split chosen
  have member : entry ∈ found := split ▸ List.mem_append_right _ List.mem_cons_self
  refine ⟨seconds, nanosecond, entry, member, readClosest_run within listed chosen,
    fun other among => ?_⟩
  have least := nearest?_least listed chosen among
  have entryWhole := whole entry member
  have otherWhole := whole other among
  -- Everything is told by the whole seconds from the target and by its decimal places.
  rw [DateTime.secondsApart_of_usual (by omega) usualTarget,
    DateTime.secondsApart_of_usual (by omega) usualTarget] at least
  rw [DateTime.apart_of_usual (by omega) usualTarget,
    DateTime.apart_of_usual (by omega) usualTarget] at least ⊢
  rw [DateTime.rank, DateTime.rank] at least ⊢
  rw [entryWhole, otherWhole] at least ⊢
  omega

/-- A quarter of a second past noon. -/
def pastNoon : DateTime := ⟨⟨2024, 3, 9⟩, ⟨12, 0, 0, 250000000⟩⟩

/-- A job's two snapshots of the sky. -/
def twoSkies (newer older : String) : World :=
  { files := ⟨[(["memory"], .directory), (["memory", "news"], .directory),
      (["memory", "news", "sky"], .directory),
      (["memory", "news", "sky", newer], .file "\"rain\""),
      (["memory", "news", "sky", older], .file "\"sun\"")]⟩ }

/-- The sky at noon and a second later. -/
def noonSky : World := twoSkies "2024-03-09_12-00-01.json" "2024-03-09_12-00-00.json"

/-- Where these lie, with their times. -/
def noonEntries : List (DateTime × String) :=
  [(⟨⟨2024, 3, 9⟩, ⟨12, 0, 1, 0⟩⟩, "memory/news/sky/2024-03-09_12-00-01.json"),
    (⟨⟨2024, 3, 9⟩, ⟨12, 0, 0, 0⟩⟩, "memory/news/sky/2024-03-09_12-00-00.json")]

/-- The leap second at the end of a year. -/
def leapSecond : DateTime := ⟨⟨2016, 12, 31⟩, ⟨23, 59, 59, 1000000000⟩⟩

/-- The sky a second before that and two seconds behind it. -/
def newYearSky : World := twoSkies "2017-01-01_00-00-01.json" "2016-12-31_23-59-59.json"

/-- Where these lie, with their times. -/
def newYearEntries : List (DateTime × String) :=
  [(⟨⟨2017, 1, 1⟩, ⟨0, 0, 1, 0⟩⟩, "memory/news/sky/2017-01-01_00-00-01.json"),
    (⟨⟨2016, 12, 31⟩, ⟨23, 59, 59, 0⟩⟩, "memory/news/sky/2016-12-31_23-59-59.json")]

/-- What is listed in order is not sorted. -/
theorem entries_of_descending {names : List String}
    (listed : world.files.list (snapshots.directory job name) = .ok names)
    (stamped : (names.filterMap fun file => (stampOf? file).map fun stamp =>
      (stamp, Files.join (snapshots.directory job name) file)) = found)
    (descending : found.Pairwise fun newer older => older.1.rank ≤ newer.1.rank) :
    snapshots.entries job name world = (.ok found, world) := by
  have sorted := List.mergeSort_of_pairwise (descending.imp fun order => decide_eq_true order)
  simp only [Snapshots.entries, Attempt.look, listed, ofNames, stamped, sorted]

theorem entries_noonSky :
    entries ⟨"memory"⟩ "news" "sky" noonSky = (.ok noonEntries, noonSky) := by
  have listed : noonSky.files.list (directory ⟨"memory"⟩ "news" "sky") =
      .ok ["2024-03-09_12-00-01.json", "2024-03-09_12-00-00.json"] := by decide +kernel
  exact entries_of_descending listed (by decide +kernel) (by decide +kernel)

theorem entries_newYearSky :
    entries ⟨"memory"⟩ "news" "sky" newYearSky = (.ok newYearEntries, newYearSky) := by
  have listed : newYearSky.files.list (directory ⟨"memory"⟩ "news" "sky") =
      .ok ["2017-01-01_00-00-01.json", "2016-12-31_23-59-59.json"] := by decide +kernel
  exact entries_of_descending listed (by decide +kernel) (by decide +kernel)

theorem readClosest_nearest_noonSky :
    entries ⟨"memory"⟩ "news" "sky" noonSky = (.ok noonEntries, noonSky) ∧
      ∃ entry ∈ noonEntries,
        readClosest ⟨"memory"⟩ "news" "sky" 0 pastNoon noonSky =
          Effect.readValue entry.2 noonSky ∧
        ∀ other ∈ noonEntries, other.1.apart pastNoon = entry.1.apart pastNoon →
          other.1.rank ≤ entry.1.rank := by
  have rounded : Decimal.nearestInt? (0 * 86400) = some 0 := by decide +kernel
  have usual : pastNoon.clock.nanosecond < 1000000000 := by decide
  have inRange : pastNoon.secondsBefore? 0 = some pastNoon := by decide +kernel
  have whole : ∀ entry ∈ noonEntries, entry.1.clock.nanosecond = 0 := by decide
  obtain ⟨-, -, entry, member, read, others⟩ :=
    readClosest_nearest rounded usual inRange entries_noonSky (List.cons_ne_nil _ _) whole
  exact ⟨entries_noonSky, entry, member, read, fun other among => (others other among).1⟩

/-- Of two snapshots the one that is farther off is read. -/
def ReadsFartherOff (now : DateTime) (world : World) : Prop :=
  ∃ newer older, entries ⟨"memory"⟩ "news" "sky" world = (.ok [newer, older], world) ∧
    daysBefore now 0 = .ok now ∧
    readClosest ⟨"memory"⟩ "news" "sky" 0 now world = Effect.readValue newer.2 world ∧
    older.1.apart now < newer.1.apart now

/-- A quarter of a second past noon, the sky of the next second is read and not that of noon; in the
leap second at the end of a year, the sky of two seconds later and not that of one second before. -/
theorem later_sky_read :
    ReadsFartherOff pastNoon noonSky ∧ ReadsFartherOff leapSecond newYearSky := by
  have rounded : Decimal.nearestInt? (0 * 86400) = some 0 := by decide +kernel
  have noon : daysBefore pastNoon 0 = .ok pastNoon := daysBefore_ok rounded (by decide +kernel)
  have leap : daysBefore leapSecond 0 = .ok leapSecond := daysBefore_ok rounded (by decide +kernel)
  exact ⟨⟨_, _, entries_noonSky, noon, readClosest_run noon entries_noonSky rfl, by decide⟩,
    ⟨_, _, entries_newYearSky, leap, readClosest_run leap entries_newYearSky rfl, by decide⟩⟩

end Newsreel.Snapshots
