import Mathlib.Tactic.SplitIfs
import Newsreel.Proofs.Attempt
import Newsreel.Proofs.Calendar.Order
import Newsreel.Proofs.Calendar.Reading

/-!
Dates are read back from their texts.

Whatever text and pattern a date comes from, it is in the calendar. Written with year, month and day
it is read by the pattern of these three as the same date, also where the year has a sign.
-/

namespace Newsreel.Calendar

/-! Dates that are found. -/

namespace Date

variable {year : Int} {date : Date}

theorem valid_of_ofYmd? {month day : Nat} (found : ofYmd? year month day = some date) :
    date.Valid := by
  have parts : date = ⟨year, month, day⟩ := by
    rw [ofYmd?] at found
    split at found
    · split at found
      · cases found
        rfl
      · cases found
    · cases found
  subst parts
  exact found

/-- Days that lie in some months lie in one of them. -/
theorem inMonth_spec (month : Nat) {rest : Nat} {lengths : List Nat} (inside : rest < lengths.sum) :
    ∃ place length day, inMonth month rest lengths = (month + place, day) ∧
      lengths[place]? = some length ∧ 1 ≤ day ∧ day ≤ length := by
  induction lengths generalizing month rest with
  | nil => exact absurd inside (Nat.not_lt_zero rest)
  | cons length lengths ih =>
    rw [inMonth]
    split
    · exact ⟨0, length, rest + 1, rfl, rfl, by omega⟩
    · rw [List.sum_cons] at inside
      obtain ⟨place, last, day, found, present, bounds⟩ := ih (month + 1) (by omega : rest - length < _)
      refine ⟨place + 1, last, day, ?_, present, bounds⟩
      rw [found, Nat.add_assoc, Nat.add_comm 1]

theorem sum_monthLengths (year : Int) : (monthLengths year).sum = yearLength year := by
  cases leap : isLeap year <;> simp [monthLengths, yearLength, leap]

theorem valid_of_ofOrdinal? {ordinal : Nat} (found : ofOrdinal? year ordinal = some date) :
    date.Valid := by
  rw [ofOrdinal?] at found
  split at found
  · rename_i bounds
    obtain ⟨representable, first, last⟩ := bounds
    have inside : ordinal - 1 < (monthLengths year).sum := by
      rw [sum_monthLengths]
      omega
    obtain ⟨place, length, day, place_eq, present, bounds⟩ := inMonth_spec 1 inside
    rw [place_eq] at found
    cases found
    rw [Valid, ofYmd?]
    simp only [Nat.add_sub_cancel_left, present]
    rw [if_pos ⟨representable, by omega, bounds⟩]
  · cases found

theorem valid_of_ofNumber? {number : Int} (found : ofNumber? number = some date) : date.Valid :=
  valid_of_ofOrdinal? found

theorem valid_of_ofIsoWeek? {week weekday : Nat}
    (found : ofIsoWeek? year week weekday = some date) : date.Valid := by
  rw [ofIsoWeek?] at found
  split at found
  · exact valid_of_ofNumber? found
  · cases found

end Date

namespace TimeFields

variable {f : TimeFields} {date : Date}

theorem orOutOfRange_ok_iff {found : Option Date} :
    orOutOfRange found = .ok date ↔ found = some date := by
  cases found <;> simp [orOutOfRange]

theorem valid_of_weekDate {year : Int} {week weekday first : Nat}
    (found : weekDate year week weekday first = .ok date) : date.Valid := by
  rw [weekDate] at found
  split at found
  · cases found
  · dsimp only at found
    split at found
    · cases found
    · split at found
      · next present =>
        cases found
        exact Date.valid_of_ofOrdinal? present
      · cases found

/-- Whether other fields agree with a date that is found has no say in which date it is. -/
theorem valid_of_found {found : Except DateFault Date} {agrees : Date → Bool} {agreed : Bool}
    (success : (found >>= fun date => pure (date, agrees date)) = .ok (date, agreed))
    (valid : ∀ other, found = .ok other → other.Valid) : date.Valid := by
  obtain ⟨other, present, success⟩ := Outcome.bind_ok_iff.mp success
  cases success
  exact valid _ present

theorem valid_of_findDate {agrees : Bool} (found : f.findDate = .ok (date, agrees)) :
    date.Valid := by
  rw [findDate] at found
  obtain ⟨year, -, found⟩ := Outcome.bind_ok_iff.mp found
  obtain ⟨isoYear, -, found⟩ := Outcome.bind_ok_iff.mp found
  split at found
  · exact valid_of_found found fun date present =>
      Date.valid_of_ofYmd? (orOutOfRange_ok_iff.mp present)
  split at found
  · exact valid_of_found found fun date present =>
      Date.valid_of_ofOrdinal? (orOutOfRange_ok_iff.mp present)
  split at found
  · exact valid_of_found found fun date => valid_of_weekDate
  split at found
  · exact valid_of_found found fun date => valid_of_weekDate
  split at found
  · exact valid_of_found found fun date present =>
      Date.valid_of_ofIsoWeek? (orOutOfRange_ok_iff.mp present)
  · cases found

theorem valid_of_date (found : f.date = .ok date) : date.Valid := by
  obtain ⟨⟨_, agrees⟩, present, found⟩ := Outcome.bind_ok_iff.mp found
  dsimp only at found
  split at found
  · cases found
    exact valid_of_findDate present
  · cases found

theorem valid_of_dateTime {offset : Int} {t : DateTime} (found : f.dateTime offset = .ok t) :
    t.date.Valid := by
  rw [dateTime] at found
  split at found
  · next present _ _ =>
    cases found
    exact valid_of_date present
  · next present _ _ =>
    dsimp only at found
    split at found
    · cases found
      exact valid_of_date present
    · cases found
  · cases found
  · cases found
  · dsimp only at found
    split_ifs at found
    obtain ⟨filled, -, found⟩ := Outcome.bind_ok_iff.mp found
    obtain ⟨_, present, found⟩ := Outcome.bind_ok_iff.mp found
    obtain ⟨_, -, found⟩ := Outcome.bind_ok_iff.mp found
    cases found
    exact valid_of_date present

end TimeFields

/-- A date that is read is in the calendar. -/
theorem valid_of_readDate {text pattern : String} {date : Date}
    (read : readDate text pattern = .ok date) : date.Valid := by
  rw [readDate] at read
  split at read
  · next found =>
    cases read
    obtain ⟨f, -, found⟩ := Outcome.bind_ok_iff.mp found
    exact TimeFields.valid_of_date found
  · cases found : readDateTime text pattern with
    | error fault =>
      rw [found] at read
      cases read
    | ok t =>
      rw [found] at read
      cases read
      obtain ⟨f, -, found⟩ := Outcome.bind_ok_iff.mp found
      exact TimeFields.valid_of_dateTime found

/-! Dates that are written. -/

namespace Date

variable {date : Date}

/-- The pattern of the texts that dates are written as. -/
def pattern : String := "%Y-%m-%d"

theorem items_pattern : Pattern.items pattern =
    [.numeral .year, Pattern.char '-', .numeral .month, Pattern.char '-', .numeral .day] := by
  decide

/-- The fields that the text of a date states. -/
def fields (date : Date) : TimeFields where
  year := some date.year
  month := some date.month
  day := some date.day

theorem Valid.date_fields (valid : date.Valid) : date.fields.date = .ok date := by
  have found : date.fields.findDate = .ok (date, true) := by
    rw [Valid] at valid
    simp [fields, TimeFields.findDate, TimeFields.resolveYear, valid, TimeFields.orOutOfRange,
      TimeFields.agreesIsoWeek, TimeFields.agreesOrdinal, TimeFields.allowsParts,
      TimeFields.allows, bind, Except.bind, pure, Except.pure]
  rw [TimeFields.date, found]
  rfl

theorem toList_text (date : Date) : date.text.toList = (yearText date.year).toList ++ '-' ::
    ((Text.padded 2 date.month).toList ++ '-' :: (Text.padded 2 date.day).toList) := by
  simp [text, String.toList_append]

/-- The text of a date states its fields. -/
theorem Valid.fields_text (valid : date.Valid) :
    Calendar.fields date.text pattern = .ok date.fields := by
  have month := valid.month
  have day := valid.day
  have two : 10 ^ 2 < numberLimit := by decide
  have read : readItems (Pattern.items pattern) ({}, date.text.toList) =
      .ok (date.fields, []) := by
    rw [items_pattern, toList_text, ← List.append_nil (Text.padded 2 date.day).toList,
      readItems_year rfl valid.parts.1 _ (by simp; decide),
      readItems_char,
      readItems_numeral (n := date.month) rfl (by decide) (by omega) (by omega)
        (Numeral.set_month rfl month),
      readItems_char,
      readItems_numeral (n := date.day) rfl (by decide) (by omega) (by omega)
        (Numeral.set_day rfl day)]
    rfl
  rw [readItems] at read
  rw [Calendar.fields, read]
  rfl

/-- A date is read back from its text. -/
theorem Valid.readDate_text (valid : date.Valid) : readDate date.text pattern = .ok date := by
  rw [readDate, valid.fields_text]
  simp only [bind, Except.bind, valid.date_fields]

end Date

end Newsreel.Calendar
