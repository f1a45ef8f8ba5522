import Newsreel.Proofs.Decimal.Integers
import Newsreel.Proofs.Decimal.Text
import Newsreel.Template

/-!
Whole numbers with decimal places.

A placeholder with a count of places takes every number as a binary64 number, also one that is
written without a point. The places behind a whole number are zeros, and before the point stand the
digits of the nearest number with 53 binary digits: its own digits up to 2⁵³, and beyond that only
where there are enough zeros at its binary end.
-/

namespace Newsreel

namespace Decimal

/-! ## Whole numbers with fixed places -/

/-- The point behind a whole number and the zeros of its places, nothing without places. -/
def pointZeros (places : Nat) : String := if places = 0 then "" else "." ++ zeros places

/-- Zeros at the end of a number are zeros at the end of its digits. -/
theorem toDigits_mul_pow {n : Nat} (positive : 0 < n) (k : Nat) :
    Nat.toDigits 10 (n * 10 ^ k) = Nat.toDigits 10 n ++ List.replicate k '0' := by
  induction k with
  | zero => simp
  | succ k ih =>
    have front : 0 < n * 10 ^ k := Nat.mul_pos positive (Nat.pow_pos (by decide))
    have last := Nat.toDigits_append_toDigits (b := 10) (d := 0) (by decide) front (by decide)
    have next : 10 * (n * 10 ^ k) + 0 = n * 10 ^ (k + 1) := by ring
    rw [next, ih, Nat.toDigits_zero, List.append_assoc, ← List.replicate_succ'] at last
    exact last.symm

/-- The digits of a number with zeros at its end, filled up from the left. -/
theorem filled_mul_pow (n k : Nat) :
    List.replicate (k + 1 - (Text.natural (n * 10 ^ k)).length) '0' ++
      (Text.natural (n * 10 ^ k)).toList = (Text.natural n).toList ++ List.replicate k '0' := by
  rcases Nat.eq_zero_or_pos n with rfl | positive
  · -- the one digit of zero is the one before the point
    rw [Nat.zero_mul, Text.natural, Nat.toDigits_zero, String.length_ofList, String.toList_ofList,
      List.length_singleton, Nat.add_sub_cancel, ← List.replicate_succ', List.replicate_succ]
    rfl
  · have digits : (Text.natural (n * 10 ^ k)).toList =
        (Text.natural n).toList ++ List.replicate k '0' := by
      simp only [Text.natural, String.toList_ofList, toDigits_mul_pow positive]
    have some : 0 < (Text.natural n).toList.length :=
      List.length_pos_of_ne_nil (Text.toList_natural_ne_nil n)
    have long : k + 1 - (Text.natural (n * 10 ^ k)).length = 0 := by
      rw [← String.length_toList, digits, List.length_append, List.length_replicate]
      omega
    rw [long, digits, List.replicate_zero, List.nil_append]

theorem withPoint_mul_pow (n k : Nat) :
    withPoint (Text.natural (n * 10 ^ k)) k = Text.natural n ++ pointZeros k := by
  rcases Nat.eq_zero_or_pos k with rfl | positive
  · simp [withPoint, pointZeros]
  · have filled := filled_mul_pow n k
    have length := congrArg List.length filled
    simp only [List.length_append, List.length_replicate, String.length_toList] at length
    have point : (Text.natural n).length + k - k = (Text.natural n).toList.length := by
      rw [Nat.add_sub_cancel, String.length_toList]
    apply String.toList_inj.mp
    simp only [withPoint, pointZeros, if_neg positive.ne', String.toList_append,
      String.toList_ofList, String.length_append, String.length_ofList, List.length_replicate,
      length, filled, point, List.take_left, List.drop_left, toList_zeros]
    rfl

theorem zeros_append_zeros (m n : Nat) : zeros m ++ zeros n = zeros (m + n) := by
  rw [zeros, zeros, zeros, ← String.ofList_append, List.replicate_append_replicate]

/-- What no number has places for is zeros, so all behind a whole number is. -/
theorem pointZeros_append (exact more : Nat) (text : String) :
    (if exact + more = exact then text ++ pointZeros exact
      else (if exact = 0 then text ++ pointZeros exact ++ "." else text ++ pointZeros exact) ++
        zeros more) = text ++ pointZeros (exact + more) := by
  rcases Nat.eq_zero_or_pos more with rfl | positive
  · rw [Nat.add_zero, if_pos rfl]
  rw [if_neg (by omega)]
  by_cases none : exact = 0
  · rw [if_pos none, none, pointZeros, if_pos rfl, String.append_empty, Nat.zero_add, pointZeros,
      if_neg positive.ne', String.append_assoc]
  · rw [if_neg none, pointZeros, if_neg none, pointZeros, if_neg (by omega), String.append_assoc,
      String.append_assoc, zeros_append_zeros]

/-- A whole number has zeros for its places. -/
theorem fixedMagnitude_whole {mantissa n : Nat} {exponent : Int}
    (value : binary mantissa exponent = n) (places : Nat) :
    fixedMagnitude mantissa exponent places = Text.natural n ++ pointZeros places := by
  have scaled : mantissa * 2 ^ exponent.toNat = n * 2 ^ (-exponent).toNat := by
    have whole : (mantissa : ℚ) * 2 ^ exponent.toNat = n * 2 ^ (-exponent).toNat := by
      rw [← zpow_mul_pow_toNat_neg (by norm_num), ← mul_assoc, ← value, binary]
    exact_mod_cast whole
  have quotient (k : Nat) : roundDiv (mantissa * 2 ^ exponent.toNat * 10 ^ k)
      (2 ^ (-exponent).toNat) = n * 10 ^ k := by
    rw [scaled, Nat.mul_right_comm]
    exact roundDiv_mul (n * 10 ^ k) (Nat.two_pow_pos _)
  obtain ⟨more, rest⟩ : ∃ more, places = min places (-exponent).toNat + more :=
    ⟨places - min places (-exponent).toNat, by omega⟩
  have left : places - min places (-exponent).toNat = more := by omega
  simp only [fixedMagnitude, Nat.pow_eq, quotient, withPoint_mul_pow, left]
  generalize min places (-exponent).toNat = exact at rest
  subst rest
  exact pointZeros_append exact more (Text.natural n)

theorem fixed_ofInt {n : Int} (bounded : n.natAbs.log2 < 1023) (places : Nat) :
    fixed (Float.ofInt n) places = Text.integer (nearestInt n) ++ pointZeros places := by
  obtain ⟨mantissa, exponent, whole, value⟩ := parts_ofInt bounded
  simp only [fixed, whole, fixedMagnitude_whole value places]
  by_cases negative : n < 0
  · have some : 0 < nearest n.natAbs := nearest_pos (by omega)
    simp only [nearestInt, negative, decide_true, if_true, Text.integer]
    rw [if_pos (by omega), Int.natAbs_neg, Int.natAbs_natCast, String.append_assoc]
  · simp only [nearestInt, negative, decide_false, Bool.false_eq_true, if_false, Text.integer]
    rw [if_neg (by omega), Int.natAbs_natCast, String.empty_append]

end Decimal

/-! ## Placeholders with a count of places -/

namespace Placeholder

variable {places : Nat} {n : Int}

theorem log2_lt_of_limits (least : -(Text.integerLimit : Int) ≤ n)
    (greatest : n < Text.countLimit) : n.natAbs.log2 < 1023 := by
  rcases Nat.eq_zero_or_pos n.natAbs with zero | positive
  · rw [zero]
    decide
  · have word : n.natAbs < 2 ^ 64 := by
      simp only [Text.integerLimit, Text.countLimit, Nat.pow_eq] at least greatest
      omega
    have digits := (Nat.log2_lt positive.ne').mpr word
    omega

/-- A whole number is written with the digits of the nearest one that has a mantissa. -/
theorem render_int (path : String) (least : -(Text.integerLimit : Int) ≤ n)
    (greatest : n < Text.countLimit) (writable : places ≤ placesLimit) :
    render ⟨path, some places⟩ (.number (.int n)) =
      .ok (Text.integer (Decimal.nearestInt n) ++ Decimal.pointZeros places) := by
  have fixed := Decimal.fixed_ofInt (log2_lt_of_limits least greatest) places
  simp only [render, if_neg (not_lt.mpr writable), Number.toFloat, fixed]

/-- Behind the digits of a whole number stand a point and zeros, however many places are asked for.
The digits are those of the nearest whole number that has a mantissa of 53 binary digits, so the
number keeps its own exactly if it has one. -/
theorem render_places (path : String) {n : Int} {places : Nat}
    (least : -(Text.integerLimit : Int) ≤ n) (greatest : n < Text.countLimit)
    (writable : places ≤ placesLimit) :
    render ⟨path, some places⟩ (.number (.int n)) =
        .ok (Text.integer (Decimal.nearestInt n) ++ Decimal.pointZeros places) ∧
      Decimal.Fits (Decimal.nearestInt n).natAbs ∧
      (∀ c : Int, Decimal.Fits c.natAbs → (n - Decimal.nearestInt n).natAbs ≤ (n - c).natAbs) ∧
      (render ⟨path, some places⟩ (.number (.int n)) =
          (render ⟨path, none⟩ (.number (.int n))).map (· ++ Decimal.pointZeros places) ↔
        Decimal.Fits n.natAbs) := by
  have rendered := render_int path least greatest writable
  have plain : render ⟨path, none⟩ (.number (.int n)) = .ok (Text.integer n) := rfl
  refine ⟨rendered, Decimal.fits_nearestInt n, fun c => Decimal.nearestInt_closest n, ?_⟩
  rw [rendered, plain, Except.map, ← Decimal.nearestInt_eq_iff]
  constructor
  · intro same
    exact Text.integer_injective (String.append_left_inj _ |>.mp (Except.ok.inj same))
  · intro same
    rw [same]

theorem render_places_billions :
    -(Text.integerLimit : Int) ≤ -9000000000 ∧ (-9000000000 : Int) < Text.countLimit ∧
      3 ≤ placesLimit ∧
      render ⟨"visitors", some 3⟩ (.number (.int (-9000000000))) =
        (render ⟨"visitors", none⟩ (.number (.int (-9000000000)))).map
          (· ++ Decimal.pointZeros 3) :=
  ⟨by decide, by decide, by decide,
    (render_places "visitors" (by decide) (by decide) (by decide)).2.2.2.mpr
      (Decimal.fits_of_le (by decide))⟩

/-- One more than 2⁵³ has 54 binary digits, and the last of them is lost. -/
theorem long_number_changed :
    render ⟨"x", some 2⟩ (.number (.int 9007199254740993)) = .ok "9007199254740992.00" ∧
      render ⟨"x", none⟩ (.number (.int 9007199254740993)) = .ok "9007199254740993" := by
  constructor
  · rfl
  · rfl

end Placeholder

end Newsreel
