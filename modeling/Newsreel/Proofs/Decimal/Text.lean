import Newsreel.Decimal.Reader
import Newsreel.Proofs.Decimal.Shortest
import Newsreel.Proofs.Text.Digits

/-!
The text of a binary64 number tells it from every other one.

Whatever the layout, what is written states the digits that were found for the number, if it is taken
apart in the way numbers are read: digits with or without a point, and perhaps an exponent. Since the
digits belong to one number only, so does the text.
-/

namespace Newsreel.Decimal

/-! ## Taking texts apart -/

/-- The number that a text without a sign states, taken apart in the way of the reader. -/
def stated? (cs : List Char) : Option ℚ :=
  let (whole, rest) := takeDigits cs
  let (places, rest) := match rest with
    | '.' :: rest => takeDigits rest
    | rest => ([], rest)
  match Text.digits? (whole ++ places), exponent? rest with
  | some digits, some power => some (decimal digits (power - places.length))
  | _, _ => none

theorem takeDigits_append {digits rest : List Char} (all : ∀ c ∈ digits, c.isDigit = true)
    (ends : ∀ c ∈ rest.head?, Text.isDigit c = false) :
    takeDigits (digits ++ rest) = (digits, rest) :=
  Text.span_append (fun c member => Text.isDigit_of_charIsDigit (all c member)) ends

/-- What stands behind the digits of a number: an exponent or nothing. -/
inductive Tail : List Char → Int → Prop
  | none : Tail [] 0
  | down (n : Nat) : Tail ('e' :: '-' :: (Text.natural n).toList) (-n)
  | up (n : Nat) : Tail ('e' :: '+' :: (Text.natural n).toList) n

section

variable {tail whole places : List Char} {power : Int}

theorem Tail.exponent? (ends : Tail tail power) : exponent? tail = some power := by
  cases ends with
  | none => rfl
  | down n => simp [Decimal.exponent?, Text.digits?_natural]
  | up n => simp [Decimal.exponent?, Text.digits?_natural]

theorem Tail.takeDigits_append (ends : Tail tail power) (digits : ∀ c ∈ whole, c.isDigit = true) :
    takeDigits (whole ++ tail) = (whole, tail) := by
  refine Decimal.takeDigits_append digits ?_
  cases ends <;> simp <;> decide

end

/-! ## Texts of numbers -/

/-- A character of a number. -/
def isNumeric (c : Char) : Bool := c.isDigit || c == '-' || c == '+' || c == '.' || c == 'e'

theorem isNumeric_of_isDigit {c : Char} (digit : c.isDigit = true) : isNumeric c = true := by
  simp [isNumeric, digit]

/-- A text without a sign that states a number. -/
structure States (text : List Char) (x : ℚ) : Prop where
  value : stated? text = some x
  numeric : ∀ c ∈ text, isNumeric c = true

section

variable {tail whole places : List Char} {power : Int}

theorem Tail.numeric (ends : Tail tail power) : ∀ c ∈ tail, isNumeric c = true := by
  cases ends with
  | none => simp
  | down n | up n =>
    simp only [List.mem_cons]
    rintro c (rfl | rfl | digit)
    · decide
    · decide
    · exact isNumeric_of_isDigit (Text.isDigit_of_mem_natural digit)

theorem Tail.states_whole (ends : Tail tail power) (nonempty : whole ≠ [])
    (digits : ∀ c ∈ whole, c.isDigit = true) :
    States (whole ++ tail) (decimal (Nat.ofDigitChars 10 whole 0) power) := by
  constructor
  · have value := Text.digits?_of_isDigit nonempty digits
    have scale := ends.exponent?
    rw [stated?, ends.takeDigits_append digits]
    cases ends <;> simp [value, scale]
  · intro c member
    rcases List.mem_append.mp member with digit | behind
    · exact isNumeric_of_isDigit (digits c digit)
    · exact ends.numeric c behind

theorem Tail.states_point (ends : Tail tail power) (nonempty : whole ++ places ≠ [])
    (digits : ∀ c ∈ whole ++ places, c.isDigit = true) :
    States (whole ++ '.' :: places ++ tail)
      (decimal (Nat.ofDigitChars 10 (whole ++ places) 0) (power - places.length)) := by
  constructor
  · have before : takeDigits (whole ++ '.' :: (places ++ tail)) = (whole, '.' :: (places ++ tail)) :=
      Decimal.takeDigits_append (fun c member => digits c (List.mem_append_left _ member))
        (by simp; decide)
    have behind := ends.takeDigits_append fun c member => digits c (List.mem_append_right _ member)
    rw [List.append_assoc, List.cons_append]
    simp only [stated?, before, behind, Text.digits?_of_isDigit nonempty digits, ends.exponent?]
  · intro c member
    simp only [List.mem_append, List.mem_cons] at member
    rcases member with (digit | rfl | digit) | behind
    · exact isNumeric_of_isDigit (digits c (List.mem_append_left _ digit))
    · decide
    · exact isNumeric_of_isDigit (digits c (List.mem_append_right _ digit))
    · exact ends.numeric c behind

end

theorem toList_zeros (n : Nat) : (zeros n).toList = List.replicate n '0' := String.toList_ofList

theorem isDigit_of_mem_replicate {n : Nat} {c : Char} (member : c ∈ List.replicate n '0') :
    c.isDigit = true := by
  rw [List.eq_of_mem_replicate member]
  decide

/-- The digits of a number cut by a point, with zeros in front where there are too few of them. -/
theorem toList_withPoint (number : Nat) {places : Nat} (cut : places ≠ 0) :
    ∃ whole fraction, (withPoint (Text.natural number) places).toList = whole ++ '.' :: fraction ∧
      fraction.length = places ∧ (∀ c ∈ whole ++ fraction, c.isDigit = true) ∧
      Nat.ofDigitChars 10 (whole ++ fraction) 0 = number := by
  simp only [withPoint, if_neg cut, String.toList_ofList, String.toList_append, String.length_append,
    String.length_ofList, List.length_replicate]
  refine ⟨_, _, rfl, ?_, ?_, ?_⟩
  · rw [List.length_drop, List.length_append, List.length_replicate, String.length_toList]
    omega
  · rw [List.take_append_drop]
    intro c member
    exact (List.mem_append.mp member).elim isDigit_of_mem_replicate Text.isDigit_of_mem_natural
  · rw [List.take_append_drop, Nat.ofDigitChars_append, Nat.ofDigitChars_replicate_zero,
      Nat.mul_zero, Text.ofDigitChars_natural]

theorem states_withPoint (number places : Nat) {tail : List Char} {power : Int}
    (ends : Tail tail power) :
    States ((withPoint (Text.natural number) places).toList ++ tail)
      (decimal number (power - places)) := by
  by_cases cut : places = 0
  · have whole := ends.states_whole (Text.toList_natural_ne_nil number) fun _ =>
      Text.isDigit_of_mem_natural
    rw [Text.ofDigitChars_natural] at whole
    simpa [withPoint, cut] using whole
  · obtain ⟨whole, fraction, text, length, digits, value⟩ := toList_withPoint number cut
    have nonempty : whole ++ fraction ≠ [] := by
      intro empty
      rw [← length, (List.append_eq_nil_iff.mp empty).2] at cut
      exact cut rfl
    have point := ends.states_point nonempty digits
    rwa [value, length, ← text] at point

theorem states_scientificText (number : Nat) (leading : Int) :
    States (scientificText (Text.natural number) leading).toList
      (decimal number (leading - ((Text.natural number).length - 1 : Nat))) := by
  rw [scientificText, String.toList_append, String.toList_append, List.append_assoc]
  refine states_withPoint number _ ?_
  split
  · next below =>
    have down := Tail.down leading.natAbs
    rwa [Int.natCast_natAbs, abs_of_neg below, neg_neg] at down
  · next above =>
    have up := Tail.up leading.natAbs
    rwa [Int.natCast_natAbs, abs_of_nonneg (not_lt.mp above)] at up

/-- Zeros behind the digits of a number. -/
theorem natural_append_zeros (number zeros : Nat) :
    (Text.natural number).toList ++ List.replicate zeros '0' ≠ [] ∧
      (∀ c ∈ (Text.natural number).toList ++ List.replicate zeros '0', c.isDigit = true) ∧
      Nat.ofDigitChars 10 ((Text.natural number).toList ++ List.replicate zeros '0') 0 =
        10 ^ zeros * number := by
  refine ⟨fun empty => ?_, fun c member => ?_, ?_⟩
  · exact Text.toList_natural_ne_nil number (List.append_eq_nil_iff.mp empty).1
  · exact (List.mem_append.mp member).elim Text.isDigit_of_mem_natural isDigit_of_mem_replicate
  · rw [Nat.ofDigitChars_append, Nat.ofDigitChars_replicate_zero, Text.ofDigitChars_natural]

theorem states_positionalText (layout : Layout) (number : Nat) (power : Int) :
    States (layout.positionalText (Text.natural number) power).toList (decimal number power) := by
  rw [Layout.positionalText]
  split
  · next whole =>
    simp only [String.toList_append, toList_zeros]
    split
    · have longer : (Text.natural number).toList ++ List.replicate power.toNat '0' ++ ['0'] =
          (Text.natural number).toList ++ List.replicate (power.toNat + 1) '0' := by
        rw [List.append_assoc, List.replicate_succ']
      obtain ⟨nonempty, digits, value⟩ := natural_append_zeros number (power.toNat + 1)
      rw [← longer] at nonempty digits value
      have point := Tail.none.states_point nonempty digits
      rw [value, decimal_pow_mul, List.append_nil] at point
      have scale : 0 - ((['0'] : List Char).length : Int) + (power.toNat + 1 : Nat) = power := by
        rw [List.length_singleton]
        omega
      rwa [scale] at point
    · obtain ⟨nonempty, digits, value⟩ := natural_append_zeros number power.toNat
      have stated := Tail.none.states_whole nonempty digits
      rwa [value, decimal_pow_mul, Int.toNat_of_nonneg whole, zero_add] at stated
  · next fraction =>
    have point := states_withPoint number (-power).toNat .none
    rwa [List.append_nil, Int.toNat_of_nonneg (by omega), zero_sub, neg_neg] at point

/-- A number with a point or an exponent. -/
def IsReal (text : List Char) : Prop := '.' ∈ text ∨ 'e' ∈ text

theorem isReal_scientificText (digits : String) (leading : Int) :
    IsReal (scientificText digits leading).toList := by
  right
  rw [scientificText, String.toList_append, String.toList_append, List.mem_append, List.mem_append]
  left
  right
  split <;> decide

theorem isReal_positionalText (number : Nat) (power : Int) :
    IsReal (documentLayout.positionalText (Text.natural number) power).toList := by
  left
  rw [Layout.positionalText]
  split
  · rw [String.toList_append, List.mem_append]
    exact .inr (by decide)
  · obtain ⟨whole, fraction, text, -⟩ := toList_withPoint number (show (-power).toNat ≠ 0 by omega)
    rw [text]
    exact List.mem_append_right _ List.mem_cons_self

/-- Both ways to write a number state it, and in a document it is never taken for a whole one. -/
theorem states_text (layout : Layout) (number : Nat) (power : Int) (positional : Bool) :
    let text := if positional then layout.positionalText (Text.natural number) power
      else scientificText (Text.natural number) (power + (Text.natural number).length - 1)
    States text.toList (decimal number power) ∧ (layout = documentLayout → IsReal text.toList) := by
  cases positional with
  | true =>
    refine ⟨states_positionalText layout number power, ?_⟩
    rintro rfl
    exact isReal_positionalText number power
  | false =>
    refine ⟨?_, fun _ => isReal_scientificText _ _⟩
    have stated := states_scientificText number (power + (Text.natural number).length - 1)
    have some : 0 < (Text.natural number).length := by
      rw [← String.length_toList]
      exact List.length_pos_of_ne_nil (Text.toList_natural_ne_nil number)
    have scale : power + (Text.natural number).length - 1 -
        ((Text.natural number).length - 1 : Nat) = power := by omega
    rwa [scale] at stated

/-! ## The text of a binary64 number -/

/-- What the digits of a number stand for. -/
def magnitude (mantissa : Nat) (exponent : Int) : ℚ :=
  if mantissa = 0 then 0 else decimal (shortest mantissa exponent).1 (shortest mantissa exponent).2

/-- The characters of a sign. -/
def sign (negative : Bool) : List Char := if negative then ['-'] else []

section

variable {x y : Float} {negative : Bool} {mantissa : Nat} {exponent : Int}

theorem toList_write (layout : Layout) (finite : parts x = .finite negative mantissa exponent) :
    ∃ text, (layout.write x).toList = sign negative ++ text ∧
      States text (magnitude mantissa exponent) ∧ (layout = documentLayout → IsReal text) := by
  have signed : (if negative then "-" else "").toList = sign negative := by
    cases negative <;> rfl
  rw [Layout.write, finite]
  simp only [magnitude]
  split
  · have zero := states_text layout 0 0 true
    rw [decimal, Nat.cast_zero, zero_mul] at zero
    exact ⟨(layout.positionalText "0" 0).toList, by rw [String.toList_append, signed], zero⟩
  · exact ⟨_, by rw [String.toList_append, signed], states_text layout _ _ _⟩

theorem exists_parts (finite : isFinite x = true) :
    ∃ negative mantissa exponent, parts x = .finite negative mantissa exponent := by
  unfold isFinite at finite
  split at finite
  · next negative mantissa exponent whole => exact ⟨negative, mantissa, exponent, whole⟩
  · cases finite

theorem numeric_write (layout : Layout) (finite : isFinite x = true) :
    ∀ c ∈ (layout.write x).toList, isNumeric c = true := by
  obtain ⟨negative, mantissa, exponent, whole⟩ := exists_parts finite
  obtain ⟨text, written, states, -⟩ := toList_write layout whole
  intro c member
  rw [written, List.mem_append] at member
  rcases member with signed | behind
  · cases negative with
    | false => cases signed
    | true =>
      rw [List.mem_singleton.mp signed]
      decide
  · exact states.numeric c behind

theorem isReal_write (finite : isFinite x = true) : IsReal (documentLayout.write x).toList := by
  obtain ⟨negative, mantissa, exponent, whole⟩ := exists_parts finite
  obtain ⟨text, written, -, real⟩ := toList_write documentLayout whole
  rw [written]
  exact (real rfl).imp (List.mem_append_right _) (List.mem_append_right _)

theorem stated?_minus (text : List Char) : stated? ('-' :: text) = none := by
  have taken : takeDigits ([] ++ '-' :: text) = ([], '-' :: text) :=
    takeDigits_append (by simp) (by simp; decide)
  rw [List.nil_append] at taken
  simp [stated?, taken, Text.digits?]

theorem States.sign_unique {text other : List Char} {one two : ℚ} {negative minus : Bool}
    (states : States text one) (stated : States other two)
    (same : sign negative ++ text = sign minus ++ other) : negative = minus ∧ text = other := by
  cases negative <;> cases minus
  · exact ⟨rfl, same⟩
  · obtain rfl : text = '-' :: other := same
    have value := states.value
    rw [stated?_minus] at value
    cases value
  · obtain rfl : '-' :: text = other := same
    have value := stated.value
    rw [stated?_minus] at value
    cases value
  · exact ⟨rfl, List.tail_eq_of_cons_eq same⟩

theorem magnitude_pos (finite : parts x = .finite negative mantissa exponent)
    (positive : 0 < mantissa) : 0 < magnitude mantissa exponent := by
  rw [magnitude, if_neg positive.ne']
  exact (canonical_of_parts finite positive).shortest_pos

theorem exponent_of_zero (finite : parts x = .finite negative 0 exponent) : exponent = -1074 := by
  obtain ⟨-, ⟨-, -, least⟩ | ⟨-, mantissa, -⟩⟩ := fields_of_parts finite
  · exact least
  · have hidden : 0 < hiddenBit := by decide
    omega

theorem magnitude_injective {other : Nat} {power : Int} {minus : Bool}
    (first : parts x = .finite negative mantissa exponent)
    (second : parts y = .finite minus other power)
    (same : magnitude mantissa exponent = magnitude other power) :
    mantissa = other ∧ exponent = power := by
  rcases Nat.eq_zero_or_pos mantissa with rfl | positive <;>
    rcases Nat.eq_zero_or_pos other with rfl | above
  · exact ⟨rfl, (exponent_of_zero first).trans (exponent_of_zero second).symm⟩
  · exact absurd same (magnitude_pos second above).ne
  · exact absurd same (magnitude_pos first positive).ne'
  · rw [magnitude, magnitude, if_neg positive.ne', if_neg above.ne'] at same
    exact (canonical_of_parts first positive).shortest_injective (canonical_of_parts second above) same

/-- No other number has the same text. -/
theorem write_injective (layout : Layout) (finitex : isFinite x = true) (finitey : isFinite y = true)
    (same : layout.write x = layout.write y) : x = y := by
  obtain ⟨negative, mantissa, exponent, first⟩ := exists_parts finitex
  obtain ⟨minus, other, power, second⟩ := exists_parts finitey
  obtain ⟨text, written, states, -⟩ := toList_write layout first
  obtain ⟨again, rewritten, stated, -⟩ := toList_write layout second
  rw [same, rewritten] at written
  obtain ⟨rfl, rfl⟩ := stated.sign_unique states written
  obtain ⟨rfl, rfl⟩ := magnitude_injective first second
    (Option.some.inj (states.value.symm.trans stated.value))
  exact parts_injective first second

end

end Newsreel.Decimal
