import Mathlib.Data.List.Sort
import Mathlib.Tactic.IntervalCases
import Newsreel.Calendar.Elapsed
import Newsreel.Proofs.Text.Padded

/-!
Times and their texts in order.

A time is a date and a clock, both compared from the greatest unit to the least. Its rank and its
text follow that order, so comparing texts is comparing times: every unit has a fixed number of
digits, and the decimal places of a second, of which there may be none, three, six or nine, end
where only zeros are left.
-/

namespace Newsreel.Calendar

/-! Dates. -/

theorem daysBeforeYear_succ (year : Int) :
    daysBeforeYear (year + 1) = daysBeforeYear year + yearLength year := by
  simp only [daysBeforeYear, Int.fdiv_eq_ediv_of_nonneg _ (show (0 : Int) ≤ 4 by decide),
    Int.fdiv_eq_ediv_of_nonneg _ (show (0 : Int) ≤ 100 by decide),
    Int.fdiv_eq_ediv_of_nonneg _ (show (0 : Int) ≤ 400 by decide), yearLength, isLeap,
    Bool.and_eq_true, Bool.or_eq_true, decide_eq_true_eq]
  split <;> omega

theorem daysBeforeYear_mono {year later : Int} (order : year ≤ later) :
    daysBeforeYear year ≤ daysBeforeYear later := by
  simp only [daysBeforeYear, Int.fdiv_eq_ediv_of_nonneg _ (show (0 : Int) ≤ 4 by decide),
    Int.fdiv_eq_ediv_of_nonneg _ (show (0 : Int) ≤ 100 by decide),
    Int.fdiv_eq_ediv_of_nonneg _ (show (0 : Int) ≤ 400 by decide)]
  omega

theorem daysBeforeMonth_succ (year : Int) {month : Nat} (positive : 1 ≤ month) :
    daysBeforeMonth year (month + 1) =
      daysBeforeMonth year month + ((monthLengths year)[month - 1]?).getD 0 := by
  obtain ⟨m, rfl⟩ : ∃ m, month = m + 1 := ⟨month - 1, by omega⟩
  rw [daysBeforeMonth, daysBeforeMonth, Nat.add_sub_cancel, Nat.add_sub_cancel, List.take_add_one,
    List.foldl_append]
  cases (monthLengths year)[m]? <;> rfl

theorem daysBeforeMonth_mono (year : Int) {month later : Nat} (positive : 1 ≤ month)
    (order : month ≤ later) : daysBeforeMonth year month ≤ daysBeforeMonth year later := by
  induction later, order using Nat.le_induction with
  | base => exact Nat.le_refl _
  | succ later order ih =>
    rw [daysBeforeMonth_succ year (by omega)]
    omega

theorem daysBeforeMonth_end (year : Int) : daysBeforeMonth year 13 = yearLength year := by
  rw [daysBeforeMonth, yearLength]
  cases leap : isLeap year <;> simp [monthLengths, leap]

namespace Date

/-- The date is in the calendar, and its year can be written down. -/
def Valid (date : Date) : Prop := ofYmd? date.year date.month date.day = some date

/-- The date exists and its year has four digits. -/
structure Proper (date : Date) : Prop where
  year : 0 ≤ date.year ∧ date.year ≤ 9999
  exists_ : ofYmd? date.year date.month date.day = some date

/-- The date lies before another one, by year, month and day. -/
def Before (date later : Date) : Prop :=
  date.year < later.year ∨ (date.year = later.year ∧
    (date.month < later.month ∨ (date.month = later.month ∧ date.day < later.day)))

variable {date later : Date}

/-- A date has a month of its year and a day of that month. -/
theorem Valid.parts (valid : date.Valid) : isYear date.year = true ∧ ∃ length,
    (monthLengths date.year)[date.month - 1]? = some length ∧ 1 ≤ date.month ∧ 1 ≤ date.day ∧
      date.day ≤ length := by
  rw [Valid, ofYmd?] at valid
  split at valid
  · rename_i length found
    split at valid
    · rename_i bounds
      exact ⟨bounds.1, length, found, bounds.2⟩
    · cases valid
  · cases valid

theorem Valid.month (valid : date.Valid) : 1 ≤ date.month ∧ date.month ≤ 12 := by
  obtain ⟨-, length, found, positive, -⟩ := valid.parts
  have inside : date.month - 1 < 12 := (List.getElem?_eq_some_iff.mp found).1
  omega

theorem Valid.day (valid : date.Valid) : 1 ≤ date.day ∧ date.day ≤ 31 := by
  obtain ⟨-, length, found, -, positive, within⟩ := valid.parts
  have member := List.mem_of_getElem? found
  simp only [monthLengths, List.mem_cons, List.not_mem_nil, or_false] at member
  have short : length ≤ 31 := by
    split at member <;> omega
  omega

theorem Proper.valid (proper : date.Proper) : date.Valid := proper.exists_

/-- A date lies in its month. -/
theorem Proper.ordinal_le (proper : date.Proper) :
    date.ordinal ≤ daysBeforeMonth date.year (date.month + 1) := by
  obtain ⟨-, length, found, positive, -, within⟩ := proper.valid.parts
  rw [daysBeforeMonth_succ date.year positive, found, ordinal]
  exact Nat.add_le_add_left within _

theorem Proper.ordinal_le_yearLength (proper : date.Proper) :
    date.ordinal ≤ yearLength date.year := by
  have month := proper.valid.month
  calc date.ordinal ≤ daysBeforeMonth date.year (date.month + 1) := proper.ordinal_le
    _ ≤ daysBeforeMonth date.year 13 := daysBeforeMonth_mono date.year (by omega) (by omega)
    _ = yearLength date.year := daysBeforeMonth_end date.year

theorem before_or_eq_or_after (date other : Date) :
    date.Before other ∨ date = other ∨ other.Before date := by
  obtain ⟨year, month, day⟩ := date
  obtain ⟨otherYear, otherMonth, otherDay⟩ := other
  simp only [Before, Date.mk.injEq]
  omega

/-- Earlier dates have smaller numbers. -/
theorem Before.number_lt (before : date.Before later) (proper : date.Proper)
    (properLater : later.Proper) : date.number < later.number := by
  have positive := properLater.valid.day.1
  rw [number, number]
  rcases before with earlier | ⟨sameYear, earlier | ⟨sameMonth, earlier⟩⟩
  · have inYear := proper.ordinal_le_yearLength
    have next := daysBeforeYear_succ date.year
    have years := daysBeforeYear_mono (Int.add_one_le_of_lt earlier)
    have behind : 0 < later.ordinal := Nat.add_pos_right _ positive
    omega
  · have inMonth := proper.ordinal_le
    have months : daysBeforeMonth date.year (date.month + 1) ≤
        daysBeforeMonth date.year later.month :=
      daysBeforeMonth_mono date.year (Nat.succ_pos date.month) earlier
    have behind : daysBeforeMonth date.year later.month < later.ordinal := by
      rw [sameYear, ordinal]
      omega
    rw [sameYear] at months behind inMonth ⊢
    omega
  · rw [ordinal, ordinal, sameYear, sameMonth]
    omega

theorem Proper.toList_text (proper : date.Proper) : date.text.toList =
    (Text.padded 4 date.year.toNat).toList ++ '-' ::
      ((Text.padded 2 date.month).toList ++ '-' :: (Text.padded 2 date.day).toList) := by
  rw [text, yearText, if_pos proper.year]
  simp [String.toList_append]

/-- The numbers in a date have as many digits as there is room for. -/
theorem Proper.fits (proper : date.Proper) :
    date.year.toNat < 10 ^ 4 ∧ date.month < 10 ^ 2 ∧ date.day < 10 ^ 2 := by
  have year := proper.year
  have month := proper.valid.month
  have day := proper.valid.day
  omega

theorem Proper.length_text (proper : date.Proper) : date.text.toList.length = 10 := by
  obtain ⟨year, month, day⟩ := proper.fits
  rw [proper.toList_text]
  simp only [List.length_append, List.length_cons, Text.length_padded (by decide : 0 < 4) year,
    Text.length_padded (by decide : 0 < 2) month, Text.length_padded (by decide : 0 < 2) day]

/-- Earlier dates have smaller texts. -/
theorem Before.text_lt (before : date.Before later) (proper : date.Proper)
    (properLater : later.Proper) : date.text.toList < later.text.toList := by
  obtain ⟨year, month, day⟩ := properLater.fits
  have positive := proper.year
  rw [proper.toList_text, properLater.toList_text]
  refine Text.padded_append_lt (by decide) year ?_
  rcases before with earlier | ⟨sameYear, before⟩
  · exact Or.inl (by omega)
  · refine Or.inr ⟨congrArg Int.toNat sameYear, List.cons_lt_cons_iff.mpr (Or.inr ⟨rfl, ?_⟩)⟩
    refine Text.padded_append_lt (by decide) month ?_
    rcases before with earlier | ⟨sameMonth, earlier⟩
    · exact Or.inl earlier
    · refine Or.inr ⟨sameMonth, List.cons_lt_cons_iff.mpr (Or.inr ⟨rfl, ?_⟩)⟩
      exact Text.padded_lt_padded (by decide) earlier day

end Date

/-! Clocks. -/

/-- A time of day; a leap second follows the last second of a minute. -/
structure Clock.Proper (clock : Clock) : Prop where
  hour : clock.hour < 24
  minute : clock.minute < 60
  second : clock.second < 60
  nanosecond : clock.nanosecond < 1000000000 ∨
    (clock.second = 59 ∧ clock.nanosecond < 2000000000)

/-- The time of day is before another one, by hour, minute, second and nanosecond. -/
def Clock.Before (clock later : Clock) : Prop :=
  clock.hour < later.hour ∨ (clock.hour = later.hour ∧
    (clock.minute < later.minute ∨ (clock.minute = later.minute ∧
      (clock.second < later.second ∨ (clock.second = later.second ∧
        clock.nanosecond < later.nanosecond)))))

theorem Clock.before_or_eq_or_after (clock other : Clock) :
    clock.Before other ∨ clock = other ∨ other.Before clock := by
  obtain ⟨hour, minute, second, nanosecond⟩ := clock
  obtain ⟨otherHour, otherMinute, otherSecond, otherNanosecond⟩ := other
  simp only [Before, Clock.mk.injEq]
  omega

/-! Decimal places. -/

/-- Digits in groups of three from the left, as many groups as are needed. -/
def groupedDigits : (groups : Nat) → Nat → List Char
  | 0, _ => []
  | groups + 1, n =>
    if n = 0 then []
    else (Text.padded 3 (n / 1000 ^ groups)).toList ++ groupedDigits groups (n % 1000 ^ groups)

/-- Groups that are left out are zeros, so the order is that of the numbers. -/
theorem groupedDigits_lt {groups m n : Nat} (less : m < n) (fits : n < 1000 ^ groups) :
    groupedDigits groups m < groupedDigits groups n := by
  induction groups generalizing m n with
  | zero => omega
  | succ groups ih =>
    have large : n / 1000 ^ groups < 1000 := by
      rw [Nat.pow_succ] at fits
      exact Nat.div_lt_of_lt_mul fits
    have positive : 0 < 1000 ^ groups := Nat.pow_pos (by decide)
    rw [groupedDigits, groupedDigits, if_neg (by omega : n ≠ 0)]
    split
    · obtain ⟨c, cs, digits, -⟩ := Text.padded_eq_cons (by decide : 0 < 3) large
      rw [digits]
      exact List.nil_lt_cons _ _
    · refine Text.padded_append_lt (by decide) large ?_
      rcases Nat.lt_or_ge (m / 1000 ^ groups) (n / 1000 ^ groups) with smaller | larger
      · exact Or.inl smaller
      · have same : m / 1000 ^ groups = n / 1000 ^ groups :=
          Nat.le_antisymm (Nat.div_le_div_right less.le) larger
        refine Or.inr ⟨same, ih ?_ (Nat.mod_lt n positive)⟩
        have first := Nat.div_add_mod m (1000 ^ groups)
        have second := Nat.div_add_mod n (1000 ^ groups)
        rw [same] at first
        omega

namespace DateTime

theorem toList_placesText (nanosecond : Nat) : (placesText nanosecond).toList =
      if nanosecond = 0 then [] else '.' :: groupedDigits 3 nanosecond := by
  have three (n : Nat) : (Text.padded 6 n).toList =
      (Text.padded 3 (n / 1000)).toList ++ (Text.padded 3 (n % 1000)).toList :=
    Text.toList_padded_add (by decide : 0 < 3) 2 n
  have six (n : Nat) : (Text.padded 9 n).toList =
      (Text.padded 6 (n / 1000)).toList ++ (Text.padded 3 (n % 1000)).toList :=
    Text.toList_padded_add (by decide : 0 < 6) 2 n
  have point : ".".toList = ['.'] := rfl
  have first : nanosecond / 1000 / 1000 = nanosecond / 1000000 := by omega
  have second : nanosecond / 1000 % 1000 = nanosecond % 1000000 / 1000 := by omega
  have third : nanosecond % 1000000 % 1000 = nanosecond % 1000 := by omega
  rw [placesText]
  by_cases none : nanosecond = 0
  · rw [if_pos none, if_pos none]
    rfl
  · rw [if_neg none, if_neg none]
    by_cases milli : nanosecond % 1000000 = 0
    · simp [groupedDigits, none, milli, String.toList_append, point]
    · rw [if_neg milli]
      by_cases micro : nanosecond % 1000 = 0
      · simp [groupedDigits, none, milli, micro, third, String.toList_append, point, three, first,
          second]
      · simp [groupedDigits, none, milli, micro, third, String.toList_append, point, three, six,
          first, second, List.append_assoc]

/-- Fewer nanoseconds have smaller decimal places. -/
theorem placesText_lt {m n : Nat} (less : m < n) (fits : n < 1000000000) :
    (placesText m).toList < (placesText n).toList := by
  rw [toList_placesText, toList_placesText, if_neg (by omega : n ≠ 0)]
  split
  · exact List.nil_lt_cons _ _
  · exact List.cons_lt_cons_iff.mpr (Or.inr ⟨rfl, groupedDigits_lt less fits⟩)

/-! Times. -/

/-- The time exists and its year has four digits. -/
structure Proper (t : DateTime) : Prop where
  date : t.date.Proper
  clock : t.clock.Proper

/-- The time is before another one, by date and clock. -/
def Before (t later : DateTime) : Prop :=
  t.date.Before later.date ∨ (t.date = later.date ∧ t.clock.Before later.clock)

variable {t later : DateTime}

theorem before_or_eq_or_after (t other : DateTime) :
    t.Before other ∨ t = other ∨ other.Before t := by
  obtain ⟨date, clock⟩ := t
  obtain ⟨otherDate, otherClock⟩ := other
  rcases date.before_or_eq_or_after otherDate with before | rfl | after
  · exact Or.inl (Or.inl before)
  · rcases clock.before_or_eq_or_after otherClock with before | rfl | after
    · exact Or.inl (Or.inr ⟨rfl, before⟩)
    · exact Or.inr (Or.inl rfl)
    · exact Or.inr (Or.inr (Or.inr ⟨rfl, after⟩))
  · exact Or.inr (Or.inr (Or.inl after))

/-- Earlier times have smaller ranks. -/
theorem Before.rank_lt (before : t.Before later) (proper : t.Proper)
    (properLater : later.Proper) : t.rank < later.rank := by
  obtain ⟨hour, minute, second, nanosecond⟩ := proper.clock
  obtain ⟨hourLater, minuteLater, secondLater, nanosecondLater⟩ := properLater.clock
  rw [rank, rank, seconds, seconds]
  rcases before with earlier | ⟨same, earlier⟩
  · have number := earlier.number_lt proper.date properLater.date
    omega
  · rw [same]
    rcases earlier with less | ⟨sameHour, less | ⟨sameMinute, less | ⟨sameSecond, less⟩⟩⟩ <;> omega

theorem toList_clockText (t : DateTime) : t.clockText.toList =
    (Text.padded 2 t.clock.hour).toList ++ ':' :: ((Text.padded 2 t.clock.minute).toList ++ ':' ::
      ((Text.padded 2 (t.clock.second + t.clock.nanosecond / 1000000000)).toList ++
        (placesText (t.clock.nanosecond % 1000000000)).toList)) := by
  simp [clockText, String.toList_append]

/-- Earlier times of one day have smaller texts. A leap second is the sixtieth of its minute. -/
theorem clockText_lt (before : t.clock.Before later.clock) (proper : t.clock.Proper)
    (properLater : later.clock.Proper) : t.clockText.toList < later.clockText.toList := by
  obtain ⟨hour, minute, second, nanosecond⟩ := proper
  obtain ⟨hourLater, minuteLater, secondLater, nanosecondLater⟩ := properLater
  rw [toList_clockText, toList_clockText]
  refine Text.padded_append_lt (by decide) (by omega) ?_
  rcases before with less | ⟨same, before⟩
  · exact Or.inl less
  refine Or.inr ⟨same, List.cons_lt_cons_iff.mpr (Or.inr ⟨rfl, ?_⟩)⟩
  refine Text.padded_append_lt (by decide) (by omega) ?_
  rcases before with less | ⟨same, before⟩
  · exact Or.inl less
  refine Or.inr ⟨same, List.cons_lt_cons_iff.mpr (Or.inr ⟨rfl, ?_⟩)⟩
  refine Text.padded_append_lt (by decide) (by omega) ?_
  have places : t.clock.nanosecond % 1000000000 < later.clock.nanosecond % 1000000000 →
      (placesText (t.clock.nanosecond % 1000000000)).toList <
        (placesText (later.clock.nanosecond % 1000000000)).toList :=
    fun less => placesText_lt less (Nat.mod_lt _ (by decide))
  rcases before with less | ⟨same, less⟩
  · exact Or.inl (by omega)
  · rcases Nat.lt_or_ge t.clock.nanosecond 1000000000 with usual | leap
    · rcases Nat.lt_or_ge later.clock.nanosecond 1000000000 with usualLater | leapLater
      · exact Or.inr ⟨by omega, places (by omega)⟩
      · exact Or.inl (by omega)
    · exact Or.inr ⟨by omega, places (by omega)⟩

theorem toList_text (t : DateTime) :
    t.text.toList = t.date.text.toList ++ ' ' :: t.clockText.toList := by
  simp [text, String.toList_append]

/-- Earlier times have smaller texts. -/
theorem Before.text_lt (before : t.Before later) (proper : t.Proper)
    (properLater : later.Proper) : t.text < later.text := by
  rw [String.lt_iff, toList_text, toList_text]
  rcases before with earlier | ⟨same, earlier⟩
  · refine Text.append_lt_append ?_ (earlier.text_lt proper.date properLater.date) _ _
    rw [proper.date.length_text, properLater.date.length_text]
  · rw [same]
    refine List.append_left_lt (List.cons_lt_cons_iff.mpr (Or.inr ⟨rfl, ?_⟩))
    exact clockText_lt earlier proper.clock properLater.clock

/-- Times are as their ranks. -/
theorem eq_of_rank_eq (proper : t.Proper) (properLater : later.Proper)
    (same : t.rank = later.rank) : t = later := by
  rcases t.before_or_eq_or_after later with before | equal | after
  · have less := before.rank_lt proper properLater
    omega
  · exact equal
  · have less := after.rank_lt properLater proper
    omega

/-- Texts of times are ordered as the times are. -/
theorem text_le_text_iff (proper : t.Proper) (properLater : later.Proper) :
    t.text ≤ later.text ↔ t.rank ≤ later.rank := by
  rcases t.before_or_eq_or_after later with before | rfl | after
  · exact iff_of_true (Std.le_of_lt (before.text_lt proper properLater))
      (before.rank_lt proper properLater).le
  · exact iff_of_true (String.le_refl _) (Int.le_refl _)
  · refine iff_of_false ?_ (Int.not_le.mpr (after.rank_lt properLater proper))
    exact String.not_le.mpr (after.text_lt properLater proper)

end DateTime

/-- Sorting by a key, the greatest first. -/
theorem pairwise_descending {α β : Type} [LE β] [DecidableLE β] [Std.IsLinearPreorder β]
    (key : α → β) (items : List α) :
    (items.mergeSort fun a b => decide (key b ≤ key a)).Pairwise fun a b => key b ≤ key a := by
  have trans : IsTrans α fun a b => key b ≤ key a :=
    ⟨fun a b c first second => Std.le_trans second first⟩
  have total : Std.Total fun a b : α => key b ≤ key a := ⟨fun a b => Std.le_total⟩
  exact List.pairwise_mergeSort' _ _

end Newsreel.Calendar
