import Newsreel.Calendar.Reader
import Newsreel.Proofs.Text.Digits
import Newsreel.Proofs.Text.Padded

/-!
Numbers of dates and times are read as they were written.

A number in as many digits as its item allows is read up to its last digit, whatever follows. Behind
the sign of a year there is room for any number of digits, and what is no digit ends them.
-/

namespace Newsreel.Calendar

/-- All digits are read, and then there is room for as many as are left. -/
theorem digitsUpTo_padded {width n : Nat} (front : Nat) (positive : 0 < width)
    (fits : n < 10 ^ width) (small : front * 10 ^ width + n < numberLimit) (more : Nat)
    (rest : List Char) :
    digitsUpTo (width + more) front ((Text.padded width n).toList ++ rest) =
      digitsUpTo more (front * 10 ^ width + n) rest := by
  induction width, positive using Nat.le_induction generalizing n more rest with
  | base =>
    have fits : n < 10 := by simpa using fits
    have value : 10 * front + n = front * 10 ^ 1 + n := by omega
    rw [Text.toList_padded_one fits, List.singleton_append, Nat.add_comm, digitsUpTo,
      Text.digit?_digitChar fits]
    simp only [value]
    rw [if_neg (Nat.not_le.mpr small)]
  | succ width positive ih =>
    have tens : n / 10 < 10 ^ width := by
      rw [Nat.pow_succ] at fits
      omega
    have last : n % 10 < 10 := Nat.mod_lt n (by decide)
    have value : 10 * (front * 10 ^ width + n / 10) + n % 10 = front * 10 ^ (width + 1) + n := by
      rw [Nat.pow_succ, ← Nat.mul_assoc]
      omega
    rw [Text.toList_padded_succ positive, List.append_assoc, List.singleton_append, Nat.add_assoc,
      Nat.add_comm 1 more, ih tens (by omega), digitsUpTo, Text.digit?_digitChar last]
    simp only [value]
    rw [if_neg (Nat.not_le.mpr small)]

theorem skipBlanks_padded {width n : Nat} (positive : 0 < width) (fits : n < 10 ^ width)
    (rest : List Char) : skipBlanks ((Text.padded width n).toList ++ rest) =
      (Text.padded width n).toList ++ rest := by
  obtain ⟨c, cs, digits, isDigit⟩ := Text.padded_eq_cons positive fits
  rw [digits, List.cons_append, skipBlanks,
    List.dropWhile_cons_of_neg (by simp [Text.isBlank_of_isDigit isDigit])]

theorem number_padded {width n : Nat} (positive : 0 < width) (fits : n < 10 ^ width)
    (small : n < numberLimit) (rest : List Char) :
    number width ((Text.padded width n).toList ++ rest) = .ok (n, rest) := by
  obtain ⟨c, cs, digits, isDigit⟩ := Text.padded_eq_cons positive fits
  have read : digitsUpTo width 0 ((Text.padded width n).toList ++ rest) = .ok (n, rest) := by
    have all := digitsUpTo_padded 0 positive fits (by omega) 0 rest
    rw [Nat.zero_mul, Nat.zero_add, digitsUpTo] at all
    exact all
  have first : Text.isDigit c = true := by rw [Text.isDigit, Text.digit?_of_isDigit isDigit]; rfl
  rw [digits, List.cons_append] at read ⊢
  rw [number, if_pos first, read]

/-- A number that fills its item is what the item reads, sign or no sign. -/
theorem readPlain_numeral {item : Numeral} {width n : Nat} (room : item.width = some width)
    (positive : 0 < width) (fits : n < 10 ^ width) (small : n < numberLimit) (f : TimeFields)
    (rest : List Char) :
    readPlain (.numeral item) (f, (Text.padded width n).toList ++ rest) =
      (item.set f n).map fun fields => (fields, rest) := by
  obtain ⟨c, cs, digits, isDigit⟩ := Text.padded_eq_cons positive fits
  have read := number_padded positive fits small rest
  have signed : signedNumber width ((Text.padded width n).toList ++ rest) =
      .ok ((n : Int), rest) := by
    rw [digits, List.cons_append] at read ⊢
    rw [signedNumber]
    · rw [read]
      rfl
    · rintro _ minus
      cases minus
      cases isDigit
    · rintro _ plus
      cases plus
      cases isDigit
  rw [readPlain, skipBlanks_padded positive fits, room, Option.getD_some]
  cases item.isSigned with
  | true =>
    rw [if_pos rfl, signed]
    rfl
  | false =>
    rw [if_neg Bool.false_ne_true, read]
    rfl

theorem readPlain_char (c : Char) (f : TimeFields) (rest : List Char) :
    readPlain (Pattern.char c) (f, c :: rest) = .ok (f, rest) := by
  simp [readPlain, Pattern.char, byteLength]

/-- Reads items, one after the other. -/
def readItems (items : List Item) (progress : Progress) : Except DateFault Progress :=
  items.foldlM (fun progress item => readItem item progress) progress

theorem readItems_numeral {item : Numeral} {width n : Nat} {f g : TimeFields}
    (room : item.width = some width) (positive : 0 < width) (fits : n < 10 ^ width)
    (small : n < numberLimit) (set : item.set f n = .ok g) (items : List Item) (rest : List Char) :
    readItems (.numeral item :: items) (f, (Text.padded width n).toList ++ rest) =
      readItems items (g, rest) := by
  have read : readItem (.numeral item) (f, (Text.padded width n).toList ++ rest) =
      .ok (g, rest) := by
    rw [readItem, readPlain_numeral room positive fits small, set]
    · rfl
    · nofun
  rw [readItems, List.foldlM_cons, read]
  rfl

theorem readItems_char (c : Char) (items : List Item) (f : TimeFields) (rest : List Char) :
    readItems (Pattern.char c :: items) (f, c :: rest) = readItems items (f, rest) := by
  have read : readItem (Pattern.char c) (f, c :: rest) = .ok (f, rest) := readPlain_char c f rest
  rw [readItems, List.foldlM_cons, read]
  rfl

/-! Numbers that are set for the first time. -/

theorem yearLimit_of_isYear {year : Int} (representable : isYear year = true) :
    -262143 ≤ year ∧ year ≤ 262142 := by
  rw [isYear, Bool.and_eq_true, decide_eq_true_eq, decide_eq_true_eq] at representable
  exact representable

theorem setYear_of_isYear {f : TimeFields} {year : Int} (free : f.year = none)
    (representable : isYear year = true) : f.setYear year = .ok { f with year := some year } := by
  have bounds := yearLimit_of_isYear representable
  have inside : ¬(year < -TimeFields.yearLimit ∨ TimeFields.yearLimit ≤ year) := by
    rw [TimeFields.yearLimit]
    omega
  rw [TimeFields.setYear, if_neg inside, free]
  rfl

namespace Numeral

variable {f : TimeFields} {n : Nat}

theorem within_natCast {low high : Int} (bounds : low ≤ n ∧ (n : Int) ≤ high) :
    within low high n = .ok n := by
  rw [within, if_pos bounds, Int.toNat_natCast]

theorem set_year {year : Int} (free : f.year = none) (representable : isYear year = true)
    (positive : 0 ≤ year) : set f year.toNat .year = .ok { f with year := some year } := by
  rw [Int.toNat_of_nonneg positive]
  exact setYear_of_isYear free representable

theorem set_month (free : f.month = none) (bounds : 1 ≤ n ∧ n ≤ 12) :
    set f n .month = .ok { f with month := some n } := by
  rw [set, TimeFields.setMonth, within_natCast (by omega), free]
  rfl

theorem set_day (free : f.day = none) (bounds : 1 ≤ n ∧ n ≤ 31) :
    set f n .day = .ok { f with day := some n } := by
  rw [set, TimeFields.setDay, within_natCast (by omega), free]
  rfl

theorem set_hour (free : f.afternoon = none ∧ f.hourOfHalf = none) (small : n ≤ 23) :
    set f n .hour = .ok { f with afternoon := some (12 ≤ n), hourOfHalf := some (n % 12) } := by
  rw [set, TimeFields.setHour, within_natCast (by omega)]
  simp [TimeFields.setAfternoon, agree, free, bind, Except.bind, pure, Except.pure]

theorem set_minute (free : f.minute = none) (small : n ≤ 59) :
    set f n .minute = .ok { f with minute := some n } := by
  rw [set, TimeFields.setMinute, within_natCast (by omega), free]
  rfl

theorem set_second (free : f.second = none) (small : n ≤ 60) :
    set f n .second = .ok { f with second := some n } := by
  rw [set, TimeFields.setSecond, within_natCast (by omega), free]
  rfl

end Numeral

/-! Years that are written down. -/

/-- Digits end where something else stands. -/
theorem digitsUpTo_stop (most n : Nat) {rest : List Char}
    (stops : ∀ c ∈ rest.head?, Text.digit? c = none) : digitsUpTo most n rest = .ok (n, rest) := by
  cases most with
  | zero => rfl
  | succ most =>
    cases rest with
    | nil => rfl
    | cons c cs =>
      rw [digitsUpTo, stops c rfl]

/-- Where there is room for all digits of a number, it is read whole. -/
theorem number_of_digits {width n : Nat} (positive : 0 < width) (small : n < numberLimit)
    {rest : List Char} (stops : ∀ c ∈ rest.head?, Text.digit? c = none) :
    number ((Text.padded width n).toList ++ rest).length ((Text.padded width n).toList ++ rest) =
      .ok (n, rest) := by
  obtain ⟨wide, present, fits, same⟩ := Text.exists_width positive n
  obtain ⟨c, cs, digits, isDigit⟩ := Text.padded_eq_cons present fits
  have read : digitsUpTo ((Text.padded width n).toList ++ rest).length 0
      ((Text.padded width n).toList ++ rest) = .ok (n, rest) := by
    rw [same, List.length_append, Text.length_padded present fits,
      digitsUpTo_padded 0 present fits (by omega), Nat.zero_mul, Nat.zero_add]
    exact digitsUpTo_stop _ n stops
  rw [same, digits, List.cons_append] at read ⊢
  rw [number, if_pos (Text.isDigit_of_charIsDigit isDigit), read]

/-- A sign in front of a year is where its number begins. -/
theorem readItems_signed {f g : TimeFields} {year : Int} {sign : Char} {cs rest : List Char}
    (visible : Text.isBlank sign = false)
    (reads : signedNumber 4 (sign :: cs) = .ok (year, rest)) (set : f.setYear year = .ok g)
    (items : List Item) :
    readItems (.numeral .year :: items) (f, sign :: cs) = readItems items (g, rest) := by
  have here : skipBlanks (sign :: cs) = sign :: cs := by
    rw [skipBlanks, List.dropWhile_cons_of_neg (by simp [visible])]
  have read : readItem (.numeral .year) (f, sign :: cs) = .ok (g, rest) := by
    rw [readItem, readPlain, here]
    · simp only [Numeral.width, Option.getD_some, Numeral.isSigned, if_true, reads, Numeral.set,
        set, bind, Except.bind, pure, Except.pure]
    · intro stamp
      cases stamp
  rw [readItems, List.foldlM_cons, read]
  rfl

/-- A year is read with its sign, if it has one. -/
theorem readItems_year {f : TimeFields} {year : Int} (free : f.year = none)
    (representable : isYear year = true) (items : List Item) {rest : List Char}
    (stops : ∀ c ∈ rest.head?, Text.digit? c = none) :
    readItems (.numeral .year :: items) (f, (Date.yearText year).toList ++ rest) =
      readItems items ({ f with year := some year }, rest) := by
  have bounds := yearLimit_of_isYear representable
  have limit : 262143 < numberLimit := by decide
  have set := setYear_of_isYear free representable
  have digits := number_of_digits (by decide : 0 < 4) (by omega : year.natAbs < numberLimit) stops
  have minus : "-".toList = ['-'] := rfl
  have plus : "+".toList = ['+'] := rfl
  rw [Date.yearText]
  split
  · next four =>
    have fits : year.toNat < 10 ^ 4 := by omega
    rw [readItems_numeral rfl (by decide) fits (by omega)
      (Numeral.set_year free representable four.1)]
  rw [String.toList_append, List.append_assoc]
  split
  · have value : -(year.natAbs : Int) = year := by omega
    rw [minus, List.singleton_append]
    refine readItems_signed (by decide) ?_ set items
    rw [signedNumber, digits]
    exact congrArg (fun n => Except.ok (n, rest)) value
  · have value : (year.natAbs : Int) = year := by omega
    rw [plus, List.singleton_append]
    refine readItems_signed (by decide) ?_ set items
    rw [signedNumber, digits]
    exact congrArg (fun n => Except.ok (n, rest)) value

end Newsreel.Calendar
