import Mathlib.Algebra.GroupWithZero.Nat
import Newsreel.Calendar.Elapsed

/-!
Times counted in seconds and taken apart again, and the time between two of them.

The distance of two times is exact here: to the nanosecond, and with a leap second counted that lies
between them. Whole seconds, as snapshots are chosen by, are coarser.
-/

namespace Newsreel.Calendar

namespace Date

theorem inMonth_eq {month rest found day : Nat} {lengths : List Nat}
    (located : inMonth month rest lengths = (found, day)) :
    ∃ passed, found = month + passed ∧ (lengths.take passed).sum + day = rest + 1 := by
  induction lengths generalizing month rest with
  | nil =>
    cases located
    exact ⟨0, rfl, by simp⟩
  | cons length lengths ih =>
    rw [inMonth] at located
    split at located
    · cases located
      exact ⟨0, rfl, by simp⟩
    · next behind =>
      obtain ⟨passed, later, days⟩ := ih located
      refine ⟨passed + 1, by omega, ?_⟩
      rw [List.take_succ_cons, List.sum_cons]
      omega

theorem ordinal_ofOrdinal? {year : Int} {ordinal : Nat} {date : Date}
    (made : ofOrdinal? year ordinal = some date) :
    date.year = year ∧ 1 ≤ ordinal ∧ date.ordinal = ordinal := by
  rcases located : inMonth 1 (ordinal - 1) (monthLengths year) with ⟨month, day⟩
  rw [ofOrdinal?, located] at made
  split at made
  · next bounds =>
    cases made
    obtain ⟨passed, rfl, days⟩ := inMonth_eq located
    refine ⟨rfl, bounds.2.1, ?_⟩
    rw [Date.ordinal, daysBeforeMonth, ← List.sum_eq_foldl, Nat.add_sub_cancel_left]
    dsimp only
    omega
  · cases made

/-- A day of the count has its number. -/
theorem number_ofNumber? {number : Int} {date : Date} (made : ofNumber? number = some date) :
    date.number = number := by
  obtain ⟨year, positive, ordinal⟩ := ordinal_ofOrdinal? made
  rw [Date.number, year, ordinal]
  omega

end Date

namespace DateTime

variable {t other : DateTime} {seconds offset : Int} {nanosecond : Nat}

theorem seconds_ofSeconds? (made : ofSeconds? seconds nanosecond = some t) :
    t.seconds = seconds ∧ t.clock.nanosecond = nanosecond := by
  obtain ⟨date, day, rfl⟩ := Option.map_eq_some_iff.mp made
  refine ⟨?_, rfl⟩
  rw [DateTime.seconds, Date.number_ofNumber? day]
  dsimp only
  omega

/-- So many seconds before a time that is in no leap second, nothing else is different. -/
theorem seconds_secondsBefore? (usual : t.clock.nanosecond < 1000000000)
    (made : t.secondsBefore? offset = some other) :
    other.seconds = t.seconds - offset ∧ other.clock.nanosecond = t.clock.nanosecond := by
  rw [secondsBefore?, if_pos (Or.inl usual)] at made
  exact seconds_ofSeconds? made

/-- The nanoseconds between two times, in either direction. A leap second that one of them lies in
counts where the other one lies behind it. -/
def apart (t other : DateTime) : Nat :=
  let leap : Int :=
    if other.seconds < t.seconds ∧ 1000000000 ≤ other.clock.nanosecond then 1
    else if t.seconds < other.seconds ∧ 1000000000 ≤ t.clock.nanosecond then -1
    else 0
  (1000000000 * (t.seconds - other.seconds + leap) + t.clock.nanosecond
    - other.clock.nanosecond).natAbs

theorem apart_of_usual (usual : t.clock.nanosecond < 1000000000)
    (usualOther : other.clock.nanosecond < 1000000000) :
    t.apart other = (1000000000 * (t.seconds - other.seconds) + t.clock.nanosecond
      - other.clock.nanosecond).natAbs := by
  rw [apart, if_neg (fun leap => absurd leap.2 (by omega)),
    if_neg (fun leap => absurd leap.2 (by omega)), Int.add_zero]

/-- Whole seconds are what is left of the distance without its decimal places. -/
theorem secondsApart_of_usual (usual : t.clock.nanosecond < 1000000000)
    (usualOther : other.clock.nanosecond < 1000000000) :
    t.secondsApart other = t.apart other / 1000000000 := by
  rw [secondsApart, nanosecondsSince, if_neg (fun leap => absurd leap.2 (by omega)),
    if_neg (fun leap => absurd leap.2 (by omega)), Int.add_zero, apart_of_usual usual usualOther,
    Int.natAbs_tdiv]
  rfl

end DateTime

end Newsreel.Calendar
