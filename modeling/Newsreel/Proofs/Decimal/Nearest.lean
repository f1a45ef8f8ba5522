import Mathlib.Tactic.Ring
import Newsreel.Decimal.Fixed

/-!
Whole numbers rounded to 53 binary digits.

A mantissa has 53 binary digits, so of a longer whole number only the multiples of a power of two
are left to choose from. What is kept is the multiple that is nearest, and it is the nearest of all
whole numbers that have a mantissa at all.
-/

namespace Newsreel.Decimal

/-! ## Rounded quotients -/

theorem roundDiv_cases (n d : Nat) : roundDiv n d = n / d ∨ roundDiv n d = n / d + 1 := by
  simp only [roundDiv]
  split
  · exact .inl rfl
  · exact .inr rfl

/-- A rounded quotient is off by half a unit at most. -/
theorem roundDiv_close (n : Nat) {d : Nat} (positive : 0 < d) :
    2 * n ≤ 2 * (roundDiv n d * d) + d ∧ 2 * (roundDiv n d * d) ≤ 2 * n + d := by
  have whole : n / d * d + n % d = n := Nat.div_add_mod' n d
  have less : n % d < d := Nat.mod_lt n positive
  have next : (n / d + 1) * d = n / d * d + d := Nat.succ_mul _ _
  simp only [roundDiv]
  split <;> omega

/-- No other multiple of the unit is nearer. -/
theorem roundDiv_closest (n c : Nat) {d : Nat} (positive : 0 < d) :
    ((n : Int) - (roundDiv n d * d : Nat)).natAbs ≤ ((n : Int) - (c * d : Nat)).natAbs := by
  obtain ⟨down, up⟩ := roundDiv_close n positive
  rcases Nat.lt_trichotomy c (roundDiv n d) with below | rfl | above
  · have step : (c + 1) * d ≤ roundDiv n d * d := Nat.mul_le_mul_right d below
    rw [Nat.succ_mul] at step
    omega
  · exact le_rfl
  · have step : (roundDiv n d + 1) * d ≤ c * d := Nat.mul_le_mul_right d above
    rw [Nat.succ_mul] at step
    omega

theorem roundDiv_mul (c : Nat) {d : Nat} (positive : 0 < d) : roundDiv (c * d) d = c := by
  simp [roundDiv, positive]

/-- A common factor cancels, as it does in a fraction. -/
theorem roundDiv_mul_mul (n d : Nat) {c : Nat} (positive : 0 < c) :
    roundDiv (n * c) (d * c) = roundDiv n d := by
  have twice : 2 * (n % d * c) = 2 * (n % d) * c := (Nat.mul_assoc ..).symm
  simp only [roundDiv, Nat.mul_div_mul_right n d positive, Nat.mul_mod_mul_right, twice,
    Nat.mul_lt_mul_right positive, Nat.mul_left_inj positive.ne']

/-! ## Whole numbers that have a mantissa -/

/-- A whole number with at most 53 binary digits and zeros behind them. -/
def Fits (n : Nat) : Prop := ∃ mantissa power, mantissa < 2 * hiddenBit ∧ n = mantissa * 2 ^ power

/-- The last one of 53 binary digits from the leading digit of a number on. -/
def unit (n : Nat) : Nat := 2 ^ (n.log2 - 52)

/-- A whole number rounded to 53 binary digits, a half to the even one. -/
def nearest (n : Nat) : Nat := roundDiv n (unit n) * unit n

theorem hiddenBit_eq : hiddenBit = 2 ^ 52 := rfl

/-- The leading digit and the 52 digits behind it, in units. -/
theorem unit_bounds {n k : Nat} (size : n.log2 = 52 + k) :
    hiddenBit * 2 ^ k ≤ n ∧ n < 2 * hiddenBit * 2 ^ k := by
  have some : n ≠ 0 := by
    rintro rfl
    rw [Nat.log2_zero] at size
    omega
  have double : 2 ^ (52 + k + 1) = 2 * hiddenBit * 2 ^ k := by
    rw [hiddenBit_eq]
    ring
  constructor
  · rw [hiddenBit_eq, ← Nat.pow_add, ← size]
    exact Nat.log2_self_le some
  · rw [← double, ← size]
    exact Nat.lt_log2_self

/-- Rounding leaves the leading digit where it is, or carries into the next one. -/
theorem roundDiv_bounds {n k : Nat} (size : n.log2 = 52 + k) :
    hiddenBit ≤ roundDiv n (2 ^ k) ∧ roundDiv n (2 ^ k) ≤ 2 * hiddenBit := by
  obtain ⟨low, high⟩ := unit_bounds size
  have least : hiddenBit ≤ n / 2 ^ k := (Nat.le_div_iff_mul_le (Nat.two_pow_pos k)).mpr low
  have greatest : n / 2 ^ k < 2 * hiddenBit := (Nat.div_lt_iff_lt_mul (Nat.two_pow_pos k)).mpr high
  rcases roundDiv_cases n (2 ^ k) with down | up <;> omega

theorem fits_of_le {n : Nat} (small : n ≤ 2 * hiddenBit) : Fits n := by
  rcases small.lt_or_eq with narrow | rfl
  · exact ⟨n, 0, narrow, by simp⟩
  · exact ⟨1, 53, by decide, by decide⟩

theorem Fits.mul_two_pow {n : Nat} (fits : Fits n) (k : Nat) : Fits (n * 2 ^ k) := by
  obtain ⟨mantissa, power, narrow, rfl⟩ := fits
  exact ⟨mantissa, power + k, narrow, by rw [Nat.pow_add, Nat.mul_assoc]⟩

theorem log2_of_lt {n : Nat} (small : n < 2 * hiddenBit) : n.log2 ≤ 52 := by
  rcases Nat.eq_zero_or_pos n with rfl | positive
  · simp
  · have := (Nat.log2_lt (k := 53) positive.ne').mpr small
    omega

theorem nearest_of_lt {n : Nat} (small : n < 2 * hiddenBit) : nearest n = n := by
  have whole : unit n = 1 := by
    rw [unit, Nat.sub_eq_zero_of_le (log2_of_lt small), Nat.pow_zero]
  have exact := roundDiv_mul n Nat.one_pos
  rw [Nat.mul_one] at exact
  rw [nearest, whole, exact, Nat.mul_one]

/-- The leading digit of a number that has more than 53 of them. -/
theorem exists_size {n : Nat} (large : 2 * hiddenBit ≤ n) : ∃ k, n.log2 = 52 + k := by
  have above : 53 ≤ n.log2 := (Nat.le_log2 (by rintro rfl; revert large; decide)).mpr large
  exact ⟨n.log2 - 52, by omega⟩

theorem unit_eq {n k : Nat} (size : n.log2 = 52 + k) : unit n = 2 ^ k := by
  rw [unit, size, Nat.add_sub_cancel_left]

theorem fits_nearest (n : Nat) : Fits (nearest n) := by
  rcases Nat.lt_or_ge n (2 * hiddenBit) with small | large
  · rw [nearest_of_lt small]
    exact fits_of_le small.le
  · obtain ⟨k, size⟩ := exists_size large
    rw [nearest, unit_eq size]
    apply Fits.mul_two_pow
    exact fits_of_le (roundDiv_bounds size).2

/-- From the leading digit of a number on, whatever fits is a multiple of its unit. -/
theorem Fits.unit_dvd {c k : Nat} (fits : Fits c) (large : hiddenBit * 2 ^ k ≤ c) : 2 ^ k ∣ c := by
  obtain ⟨mantissa, power, narrow, rfl⟩ := fits
  have room : hiddenBit * 2 ^ k < hiddenBit * 2 ^ (power + 1) := by
    calc hiddenBit * 2 ^ k ≤ mantissa * 2 ^ power := large
      _ < 2 * hiddenBit * 2 ^ power := Nat.mul_lt_mul_of_pos_right narrow (Nat.two_pow_pos power)
      _ = hiddenBit * 2 ^ (power + 1) := by ring
  have powers : 2 ^ k < 2 ^ (power + 1) := Nat.lt_of_mul_lt_mul_left room
  have order : k ≤ power := by
    have := (Nat.pow_lt_pow_iff_right (by decide)).mp powers
    omega
  exact Dvd.dvd.mul_left (Nat.pow_dvd_pow 2 order) mantissa

theorem nearest_eq_iff {n : Nat} : nearest n = n ↔ Fits n := by
  constructor
  · intro same
    rw [← same]
    exact fits_nearest n
  · intro fits
    rcases Nat.lt_or_ge n (2 * hiddenBit) with small | large
    · exact nearest_of_lt small
    · obtain ⟨k, size⟩ := exists_size large
      obtain ⟨c, whole⟩ := fits.unit_dvd (unit_bounds size).1
      rw [nearest, unit_eq size]
      rw [whole, Nat.mul_comm (2 ^ k) c, roundDiv_mul c (Nat.two_pow_pos k)]

theorem nearest_pos {n : Nat} (positive : 0 < n) : 0 < nearest n := by
  rcases Nat.lt_or_ge n (2 * hiddenBit) with small | large
  · rwa [nearest_of_lt small]
  · obtain ⟨k, size⟩ := exists_size large
    have leading : 0 < roundDiv n (2 ^ k) :=
      Nat.lt_of_lt_of_le (by decide) (roundDiv_bounds size).1
    rw [nearest, unit_eq size]
    exact Nat.mul_pos leading (Nat.two_pow_pos k)

/-- No whole number that fits is nearer. -/
theorem nearest_closest (n : Nat) {c : Nat} (fits : Fits c) :
    ((n : Int) - nearest n).natAbs ≤ ((n : Int) - c).natAbs := by
  rcases Nat.lt_or_ge n (2 * hiddenBit) with small | large
  · rw [nearest_of_lt small]
    omega
  · obtain ⟨k, size⟩ := exists_size large
    have low := (unit_bounds size).1
    rw [nearest, unit_eq size]
    rcases Nat.lt_or_ge c (hiddenBit * 2 ^ k) with below | above
    · -- below the leading digit of `n` that digit itself is nearer, and it is a multiple
      have leading := roundDiv_closest n hiddenBit (Nat.two_pow_pos k)
      omega
    · obtain ⟨multiple, whole⟩ := fits.unit_dvd above
      rw [whole, Nat.mul_comm (2 ^ k) multiple]
      exact roundDiv_closest n multiple (Nat.two_pow_pos k)

/-- A signed number rounded to 53 binary digits. -/
def nearestInt (n : Int) : Int := if n < 0 then -(nearest n.natAbs : Int) else nearest n.natAbs

theorem fits_nearestInt (n : Int) : Fits (nearestInt n).natAbs := by
  have fits := fits_nearest n.natAbs
  rw [nearestInt]
  split
  · rwa [Int.natAbs_neg, Int.natAbs_natCast]
  · rwa [Int.natAbs_natCast]

theorem nearestInt_eq_iff {n : Int} : nearestInt n = n ↔ Fits n.natAbs := by
  rw [← nearest_eq_iff, nearestInt]
  split <;> omega

theorem nearestInt_closest (n : Int) {c : Int} (fits : Fits c.natAbs) :
    (n - nearestInt n).natAbs ≤ (n - c).natAbs := by
  have closest := nearest_closest n.natAbs fits
  -- across zero any number is farther away than zero itself
  have zero := nearest_closest n.natAbs (fits_of_le (Nat.zero_le _))
  rw [nearestInt]
  split <;> omega

end Newsreel.Decimal
