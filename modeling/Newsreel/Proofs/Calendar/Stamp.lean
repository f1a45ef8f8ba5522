import Newsreel.Fetch.Snapshots
import Newsreel.Proofs.Calendar.Written

/-!
The time in a file name is read back as it was written.

The items of the pattern find the numbers of the time one after the other, and those determine it.
-/

namespace Newsreel.Calendar

/-! Stamps. -/

namespace DateTime

/-- A time without fractions of a second. -/
structure Whole (t : DateTime) : Prop extends Proper t where
  whole : t.clock.nanosecond % 1000000000 = 0

/-- The second that is written down; a leap second is the sixtieth of its minute. -/
def stampSecond (t : DateTime) : Nat := t.clock.second + t.clock.nanosecond / 1000000000

/-- The fields that a stamp states. -/
def stampFields (t : DateTime) : TimeFields where
  year := some t.date.year
  month := some t.date.month
  day := some t.date.day
  afternoon := some (12 ≤ t.clock.hour)
  hourOfHalf := some (t.clock.hour % 12)
  minute := some t.clock.minute
  second := some t.stampSecond

variable {t : DateTime}

theorem Proper.stampSecond_le (proper : t.Proper) : t.stampSecond ≤ 60 := by
  have second := proper.clock.second
  have nanosecond := proper.clock.nanosecond
  rw [stampSecond]
  omega

theorem Proper.toList_stamp (proper : t.Proper) : t.stamp.toList =
    (Text.padded 4 t.date.year.toNat).toList ++ '-' ::
      ((Text.padded 2 t.date.month).toList ++ '-' ::
        ((Text.padded 2 t.date.day).toList ++ '_' ::
          ((Text.padded 2 t.clock.hour).toList ++ '-' ::
            ((Text.padded 2 t.clock.minute).toList ++ '-' ::
              (Text.padded 2 t.stampSecond).toList)))) := by
  simp [stamp, stampSecond, String.toList_append, proper.date.toList_text]

/-- A stamp is made of digits, hyphens, an underscore and, for years out of the ordinary, a sign. -/
theorem not_mem_stamp (t : DateTime) {c : Char} (noDigit : c.isDigit = false)
    (others : c ∉ "+-_".toList) : c ∉ t.stamp.toList := by
  have padded (width n : Nat) : c ∉ (Text.padded width n).toList := fun inside => by
    rw [Text.isDigit_of_mem_padded inside] at noDigit
    cases noDigit
  have signs : c ≠ '+' ∧ c ≠ '-' ∧ c ≠ '_' := by simpa using others
  have year (year : Int) : c ∉ (Date.yearText year).toList := by
    rw [Date.yearText]
    split
    · exact padded _ _
    · rw [String.toList_append, List.mem_append, not_or]
      refine ⟨?_, padded _ _⟩
      split
      · simp [signs]
      · simp [signs]
  simp [stamp, Date.text, year, padded, signs]

theorem noSlash_stamp (t : DateTime) : '/' ∉ t.stamp.toList :=
  t.not_mem_stamp (by decide) (by decide)

/-- The date is found by its fields, and no other field contradicts it. -/
theorem Proper.date_stampFields (proper : t.Proper) : t.stampFields.date = .ok t.date :=
  proper.date.valid.date_fields

theorem Whole.clock_stampFields (whole : t.Whole) : t.stampFields.clock = .ok t.clock := by
  obtain ⟨hour, minute, second, nanosecond⟩ := whole.toProper.clock
  have rest := whole.whole
  have stated : t.stampFields.clock = .ok {
      hour := (if decide (12 ≤ t.clock.hour) = true then 12 else 0) + t.clock.hour % 12
      minute := t.clock.minute
      second := min t.stampSecond 59
      nanosecond := 0 + if t.stampSecond = 60 then 1000000000 else 0 } := rfl
  have hours : (if decide (12 ≤ t.clock.hour) = true then 12 else 0) + t.clock.hour % 12 =
      t.clock.hour := by
    simp only [decide_eq_true_eq]
    split <;> omega
  have seconds : min t.stampSecond 59 = t.clock.second := by
    rw [stampSecond]
    omega
  have leap : (0 + if t.stampSecond = 60 then 1000000000 else 0) = t.clock.nanosecond := by
    rw [stampSecond]
    split <;> omega
  rw [stated, hours, seconds, leap]

theorem items_stampPattern : Pattern.items Snapshots.stampPattern =
    [.numeral .year, Pattern.char '-', .numeral .month, Pattern.char '-', .numeral .day,
      Pattern.char '_', .numeral .hour, Pattern.char '-', .numeral .minute, Pattern.char '-',
      .numeral .second] := by
  decide

/-- The pattern finds the numbers of the time one after the other. -/
theorem Proper.fields_stamp (proper : t.Proper) :
    fields t.stamp Snapshots.stampPattern = .ok t.stampFields := by
  obtain ⟨yearFits, monthFits, dayFits⟩ := proper.date.fits
  have valid := proper.date.valid
  have month := valid.month
  have day := valid.day
  have hour := proper.clock.hour
  have minute := proper.clock.minute
  have second := proper.stampSecond_le
  have four : 10 ^ 4 < numberLimit := by decide
  have two : 10 ^ 2 < numberLimit := by decide
  have read : readItems (Pattern.items Snapshots.stampPattern) ({}, t.stamp.toList) =
      .ok (t.stampFields, []) := by
    rw [items_stampPattern, proper.toList_stamp,
      ← List.append_nil (Text.padded 2 t.stampSecond).toList,
      readItems_numeral rfl (by decide) yearFits (by omega) (Numeral.set_year rfl valid.parts.1 proper.date.year.1),
      readItems_char,
      readItems_numeral rfl (by decide) monthFits (by omega) (Numeral.set_month rfl month),
      readItems_char,
      readItems_numeral rfl (by decide) dayFits (by omega) (Numeral.set_day rfl day),
      readItems_char,
      readItems_numeral (n := t.clock.hour) rfl (by decide) (by omega) (by omega)
        (Numeral.set_hour ⟨rfl, rfl⟩ (by omega)),
      readItems_char,
      readItems_numeral (n := t.clock.minute) rfl (by decide) (by omega) (by omega)
        (Numeral.set_minute rfl (by omega)),
      readItems_char,
      readItems_numeral (n := t.stampSecond) rfl (by decide) (by omega) (by omega)
        (Numeral.set_second rfl second)]
    rfl
  rw [readItems] at read
  rw [fields, read]
  rfl

/-- A time to the second is read back from its stamp. -/
theorem Whole.readDateTime_stamp (whole : t.Whole) :
    readDateTime t.stamp Snapshots.stampPattern = .ok t := by
  rw [readDateTime, whole.toProper.fields_stamp]
  have noStamp : t.stampFields.timestamp = none := rfl
  simp only [bind, Except.bind, TimeFields.dateTime, whole.toProper.date_stampFields,
    whole.clock_stampFields, noStamp]

end DateTime

end Newsreel.Calendar
