import Mathlib
import Newsreel.Proofs.Decimal.Nearest
import Newsreel.Proofs.Decimal.Shortest

/-!
Whole numbers as binary64 numbers.

The arithmetic of binary64 is defined on numbers taken apart: a mantissa is shifted down to 53
binary digits with two more bits that remember what was lost, and rounded by them. The shift of a
whole number comes down to a rounded quotient, so what a whole number turns into is `nearest`.
-/

namespace Newsreel.Decimal

open Float.Model Float.Model.UnpackedFloat

/-! ## Mantissas shifted to the right -/

/-- A mantissa in units: the quotient, and what the two bits behind it tell of the remainder. -/
structure InUnits (shifted : ExtendedMantissa) (mantissa unit : Nat) : Prop where
  quotient : shifted.mantissa = mantissa / unit
  half : shifted.roundBit = decide (unit ≤ 2 * (mantissa % unit))
  rest : shifted.stickyBit =
    decide (2 * (mantissa % unit) ≠ 0 ∧ 2 * (mantissa % unit) ≠ unit)

/-- A mantissa of which nothing is lost. -/
def whole (mantissa : Nat) : ExtendedMantissa := ⟨mantissa, false, false⟩

theorem inUnits_whole (mantissa : Nat) : InUnits (whole mantissa) mantissa 1 :=
  ⟨by simp [whole], by simp [whole, Nat.mod_one], by simp [whole, Nat.mod_one]⟩

/-- One place to the right the units are twice as large. -/
theorem InUnits.shiftRightOne {shifted : ExtendedMantissa} {mantissa unit : Nat}
    (units : InUnits shifted mantissa unit) (positive : 0 < unit) :
    InUnits shifted.shiftRightOne mantissa (unit * 2) := by
  have less : mantissa % unit < unit := Nat.mod_lt mantissa positive
  have remainder : mantissa % (unit * 2) = mantissa % unit + unit * (mantissa / unit % 2) :=
    Nat.mod_mul
  -- the digit that is shifted out, the last one of the quotient, becomes the leading one behind it
  have digit := Nat.mod_two_eq_zero_or_one (mantissa / unit)
  constructor
  · simp [ExtendedMantissa.shiftRightOne, units.quotient, Nat.div_div_eq_div_mul]
  · simp only [ExtendedMantissa.shiftRightOne, units.quotient, remainder]
    rw [Bool.eq_iff_iff, bne_iff_ne, decide_eq_true_eq]
    rcases digit with even | odd
    · rw [even]
      omega
    · rw [odd]
      omega
  · simp only [ExtendedMantissa.shiftRightOne, units.half, units.rest, remainder]
    rw [← Bool.decide_or, decide_eq_decide]
    rcases digit with even | odd
    · rw [even]
      omega
    · rw [odd]
      omega

theorem inUnits_shiftRight (mantissa k : Nat) :
    InUnits (whole mantissa >>> k) mantissa (2 ^ k) := by
  induction k with
  | zero => exact inUnits_whole mantissa
  | succ k ih => exact ih.shiftRightOne (Nat.two_pow_pos k)

/-- The two bits decide as the remainder does. -/
theorem InUnits.roundedMantissa {shifted : ExtendedMantissa} {mantissa unit : Nat}
    (units : InUnits shifted mantissa unit) (positive : 0 < unit) :
    shifted.roundedMantissa = roundDiv mantissa unit := by
  obtain ⟨digits, round, sticky⟩ := shifted
  obtain ⟨quotient, half, rest⟩ := units
  dsimp only at quotient half rest
  subst quotient
  cases round with
  | false =>
    have below : 2 * (mantissa % unit) < unit := not_le.mp (of_decide_eq_false half.symm)
    simp only [roundDiv, if_pos (Or.inl below)]
    cases sticky <;> rfl
  | true =>
    have above : unit ≤ 2 * (mantissa % unit) := of_decide_eq_true half.symm
    cases sticky with
    | false =>
      have tie : 2 * (mantissa % unit) = unit := by
        have := of_decide_eq_false rest.symm
        omega
      change mantissa / unit + mantissa / unit % 2 = roundDiv mantissa unit
      simp only [roundDiv, tie, lt_irrefl, false_or, true_and]
      split <;> omega
    | true =>
      have apart := of_decide_eq_true rest.symm
      change mantissa / unit + 1 = roundDiv mantissa unit
      simp only [roundDiv]
      rw [if_neg (by omega)]

/-! ## Rounding -/

/-- What a mantissa and an exponent stand for. -/
def binary (mantissa : Nat) (exponent : Int) : ℚ := mantissa * (2 : ℚ) ^ exponent

/-- A mantissa with its leading bit, and an exponent within the range of finite numbers. -/
structure Normal (mantissa : Nat) (exponent : Int) : Prop where
  leading : hiddenBit ≤ mantissa
  narrow : mantissa < 2 * hiddenBit
  least : -1074 ≤ exponent
  greatest : exponent ≤ 971

theorem Normal.positive {mantissa : Nat} {exponent : Int} (normal : Normal mantissa exponent) :
    0 < mantissa := Nat.lt_of_lt_of_le (by decide) normal.leading

theorem log2_of_bounds {n : Nat} (leading : hiddenBit ≤ n) (narrow : n < 2 * hiddenBit) :
    n.log2 = 52 := by
  have positive : n ≠ 0 := Nat.pos_iff_ne_zero.mp (Nat.lt_of_lt_of_le (by decide) leading)
  exact (Nat.log2_eq_iff positive).mpr ⟨leading, narrow⟩

theorem targetExponent_eq (total : Int) :
    Format.binary64.targetExponent total = max (total - 53) (-1074) := rfl

/-- The shift to the exponent at which 53 binary digits are left. -/
theorem shiftToTargetExponent_eq (exponent : Int) {mantissa k : Nat} (size : mantissa.log2 = 52 + k)
    (least : -1074 ≤ exponent + k) :
    shiftToTargetExponent .binary64 mantissa exponent .exact =
      (whole mantissa >>> k, exponent + k) := by
  have target :
      Format.binary64.targetExponent (totalExponent mantissa exponent) = exponent + k := by
    rw [targetExponent_eq, totalExponent, size]
    omega
  have amount : (exponent + k - exponent).toNat = k := by omega
  simp only [shiftToTargetExponent, shiftToExponent, target, amount]
  rfl

section

variable (sign : Sign) (exponent : Int) {mantissa k : Nat}

/-- Rounding that does not carry into a longer mantissa. -/
theorem roundWithAccuracy_of_lt (size : mantissa.log2 = 52 + k) (least : -1074 ≤ exponent + k)
    (narrow : roundDiv mantissa (2 ^ k) < 2 * hiddenBit) :
    ∃ positive, roundWithAccuracy .binary64 sign mantissa exponent .exact =
      .finite sign (roundDiv mantissa (2 ^ k)) (exponent + k) positive := by
  have leading := (roundDiv_bounds size).1
  have positive : 0 < roundDiv mantissa (2 ^ k) := Nat.lt_of_lt_of_le (by decide) leading
  have again := shiftToTargetExponent_eq (k := 0) (exponent + k) (log2_of_bounds leading narrow)
    (by omega)
  have rounded := (inUnits_shiftRight mantissa k).roundedMantissa (Nat.two_pow_pos k)
  refine ⟨positive, ?_⟩
  simp only [roundWithAccuracy, shiftToTargetExponent_eq exponent size least, rounded, again]
  have same : (whole (roundDiv mantissa (2 ^ k)) >>> 0).mantissa = roundDiv mantissa (2 ^ k) := rfl
  rw [dif_neg (same ▸ positive.ne')]
  simp only [same, Nat.cast_zero, Int.add_zero]

/-- Rounding that carries: a shift by one more place takes back the carry. -/
theorem roundWithAccuracy_of_carry (size : mantissa.log2 = 52 + k) (least : -1074 ≤ exponent + k)
    (carry : roundDiv mantissa (2 ^ k) = 2 * hiddenBit) :
    ∃ positive, roundWithAccuracy .binary64 sign mantissa exponent .exact =
      .finite sign hiddenBit (exponent + k + 1) positive := by
  have rounded := (inUnits_shiftRight mantissa k).roundedMantissa (Nat.two_pow_pos k)
  have double : (2 * hiddenBit).log2 = 52 + 1 := Nat.log2_two_pow (n := 53)
  have again := shiftToTargetExponent_eq (exponent + k) double (by omega)
  refine ⟨by decide, ?_⟩
  simp only [roundWithAccuracy, shiftToTargetExponent_eq exponent size least, rounded, carry, again]
  have half : (whole (2 * hiddenBit) >>> 1).mantissa = hiddenBit := rfl
  rw [dif_neg (half ▸ by decide)]
  simp only [half, Nat.cast_one]

end

/-! ## Words and numbers taken apart -/

/-- The sign of numbers below zero. -/
def isMinus : Sign → Bool
  | .negative => true
  | .positive => false

/-- The parts of a number of the float arithmetic. -/
def Parts.ofUnpacked : UnpackedFloat → Parts
  | .notANumber => .nan
  | .infinity sign => .infinite (isMinus sign)
  | .zero sign => .finite (isMinus sign) 0 (-1074)
  | .finite sign mantissa exponent _ => .finite (isMinus sign) mantissa exponent

section

variable {word : BitVec Format.binary64.numBits}

theorem toNat_unpackMantissa :
    (unpackMantissa word).toNat = word.toNat % hiddenBit := by
  simp [unpackMantissa, hiddenBit]

theorem toNat_unpackExponent :
    (unpackExponent word).toNat = word.toNat / hiddenBit % 2048 := by
  simp [unpackExponent, hiddenBit, Nat.shiftRight_eq_div_pow]

theorem isMinus_unpackSign :
    isMinus (Sign.ofBitVec (unpackSign word)) = decide (signBit ≤ word.toNat) := by
  have bound : word.toNat < 2 ^ 64 := word.isLt
  have bit : (unpackSign word).toNat = word.toNat / signBit := by
    simp [unpackSign, signBit, Nat.shiftRight_eq_div_pow]
    omega
  simp only [Sign.ofBitVec, ← BitVec.toNat_inj, bit, BitVec.toNat_ofNat, Nat.reducePow,
    Nat.zero_mod, Nat.div_eq_zero_iff_lt (show 0 < signBit by decide)]
  by_cases set : signBit ≤ word.toNat
  · simp [isMinus, set, not_lt.mpr set]
  · simp [isMinus, set, not_le.mp set]

theorem unpackMantissa_eq_zero :
    unpackMantissa word = 0#_ ↔ word.toNat % hiddenBit = 0 := by
  rw [← BitVec.toNat_inj, toNat_unpackMantissa]
  rfl

theorem unpackExponent_eq_zero :
    unpackExponent word = 0#_ ↔ word.toNat / hiddenBit % 2048 = 0 := by
  rw [← BitVec.toNat_inj, toNat_unpackExponent]
  rfl

theorem unpackExponent_eq_ones :
    unpackExponent word = -1#_ ↔ word.toNat / hiddenBit % 2048 = 2047 := by
  rw [← BitVec.toNat_inj, toNat_unpackExponent]
  rfl

/-- The leading bit is not written down. -/
theorem toNat_leading_append (fraction : BitVec Format.binary64.mantissaBitsWithoutImplicit) :
    (1#1 ++ fraction).toNat = hiddenBit + fraction.toNat := by
  rw [BitVec.toNat_append, ← Nat.shiftLeft_add_eq_or_of_lt fraction.isLt]
  rfl

end

/-- The parts read off the word of a number are the ones its arithmetic is defined on. -/
theorem parts_eq_ofUnpacked (x : Float) : parts x = Parts.ofUnpacked x.toModel.unpack := by
  have word : x.toBits.toNat = x.toModel.toBits.toBitVec.toNat := rfl
  have bias : ((Format.binary64.exponentBias : Nat) : Int) +
      (Format.binary64.mantissaBitsWithoutImplicit : Nat) = 1075 := rfl
  rw [parts, Float.Model.unpack, UnpackedFloat.unpack, word]
  by_cases ones : x.toModel.toBits.toBitVec.toNat / hiddenBit % 2048 = 2047
  · rw [if_pos ones, if_pos (unpackExponent_eq_ones.mpr ones)]
    by_cases zero : x.toModel.toBits.toBitVec.toNat % hiddenBit = 0
    · rw [if_pos zero, if_pos (unpackMantissa_eq_zero.mpr zero), Parts.ofUnpacked,
        isMinus_unpackSign]
    · rw [if_neg zero, if_neg (unpackMantissa_eq_zero.not.mpr zero), Parts.ofUnpacked]
  rw [if_neg ones, if_neg (unpackExponent_eq_ones.not.mpr ones)]
  by_cases subnormal : x.toModel.toBits.toBitVec.toNat / hiddenBit % 2048 = 0
  · rw [if_pos subnormal, if_pos (unpackExponent_eq_zero.mpr subnormal)]
    by_cases zero : x.toModel.toBits.toBitVec.toNat % hiddenBit = 0
    · rw [dif_pos (unpackMantissa_eq_zero.mpr zero), Parts.ofUnpacked, isMinus_unpackSign, zero]
    · rw [dif_neg (unpackMantissa_eq_zero.not.mpr zero), Parts.ofUnpacked, isMinus_unpackSign,
        toNat_unpackMantissa, toNat_unpackExponent, bias, subnormal]
      rfl
  · rw [if_neg subnormal, if_neg (unpackExponent_eq_zero.not.mpr subnormal), Parts.ofUnpacked,
      isMinus_unpackSign, toNat_leading_append, toNat_unpackMantissa, toNat_unpackExponent, bias]

theorem unpackSign_packComponents {sign : Sign} {biased : BitVec Format.binary64.exponentBits}
    {fraction : BitVec Format.binary64.mantissaBitsWithoutImplicit} :
    unpackSign (packComponents .binary64 sign biased fraction) = sign.toBitVec := by
  simp only [unpackSign, packComponents, BitVec.extractLsb]
  rw [BitVec.extractLsb'_append_eq_of_le (by decide),
    BitVec.extractLsb'_append_eq_of_le (by decide)]
  cases sign <;> rfl

theorem ofBitVec_toBitVec (sign : Sign) : Sign.ofBitVec sign.toBitVec = sign := by
  cases sign <;> rfl

section

variable {sign : Sign} {mantissa : Nat} {exponent : Int}

theorem pack_normal (normal : Normal mantissa exponent) (positive : 0 < mantissa) :
    UnpackedFloat.pack .binary64 (.finite sign mantissa exponent positive) =
      packComponents .binary64 sign (BitVec.ofNat 11 (exponent + 1075).toNat)
        (BitVec.ofNat 52 mantissa) := by
  have size := log2_of_bounds normal.leading normal.narrow
  have bias : exponent + Format.binary64.exponentBias +
      Format.binary64.mantissaBitsWithoutImplicit = exponent + 1075 := by
    change exponent + 1023 + 52 = exponent + 1075
    omega
  have inside : ¬2 ^ 11 ≤ (exponent + 1075).toNat + 1 := by
    have := normal.greatest
    omega
  rw [UnpackedFloat.pack]
  simp only [size, bias]
  rw [if_neg inside, if_pos (show 52 + 1 = Format.binary64.mantissaBits from rfl)]

/-- A normal number is read from its word as it was written. -/
theorem unpack_pack (normal : Normal mantissa exponent) (positive : 0 < mantissa) :
    (Float.Model.pack (.finite sign mantissa exponent positive)).unpack =
      .finite sign mantissa exponent positive := by
  have ⟨leading, narrow, least, greatest⟩ := normal
  have biased : (BitVec.ofNat 11 (exponent + 1075).toNat).toNat = (exponent + 1075).toNat := by
    rw [BitVec.toNat_ofNat]
    exact Nat.mod_eq_of_lt (by omega)
  have fraction : (BitVec.ofNat 52 mantissa).toNat = mantissa - hiddenBit := by
    rw [BitVec.toNat_ofNat, ← hiddenBit_eq, Nat.mod_eq_sub_mod leading]
    exact Nat.mod_eq_of_lt (by omega)
  have notOnes : BitVec.ofNat 11 (exponent + 1075).toNat ≠ -1#11 := by
    rw [ne_eq, ← BitVec.toNat_inj, biased]
    change (exponent + 1075).toNat ≠ 2047
    omega
  have notZero : BitVec.ofNat 11 (exponent + 1075).toNat ≠ 0#11 := by
    rw [ne_eq, ← BitVec.toNat_inj, biased]
    change (exponent + 1075).toNat ≠ 0
    omega
  have digits : (1#1 ++ BitVec.ofNat 52 mantissa).toNat = mantissa := by
    have appended := toNat_leading_append (BitVec.ofNat 52 mantissa)
    rw [fraction] at appended
    omega
  have bias : ((exponent + 1075).toNat : Int) - (Format.binary64.exponentBias + (52 : Nat)) =
      exponent := by
    change ((exponent + 1075).toNat : Int) - (1023 + 52) = exponent
    omega
  change UnpackedFloat.unpack .binary64 (UnpackedFloat.pack .binary64 _) = _
  rw [pack_normal normal, UnpackedFloat.unpack]
  simp only [unpackMantissa_packComponents, unpackExponent_packComponents,
    unpackSign_packComponents, ofBitVec_toBitVec]
  rw [if_neg notOnes, if_neg notZero]
  simp only [digits, biased, bias]

/-- The parts of a normal number. -/
theorem parts_pack (normal : Normal mantissa exponent) (positive : 0 < mantissa) :
    parts (.ofModel (.pack (.finite sign mantissa exponent positive))) =
      .finite (isMinus sign) mantissa exponent := by
  rw [parts_eq_ofUnpacked]
  change Parts.ofUnpacked (Float.Model.pack (.finite sign mantissa exponent positive)).unpack = _
  rw [unpack_pack normal, Parts.ofUnpacked]

end

/-! ## Whole numbers -/

theorem log2_mul_two_pow {n : Nat} (positive : 0 < n) (k : Nat) :
    (n * 2 ^ k).log2 = n.log2 + k := by
  apply (Nat.log2_eq_iff (Nat.mul_pos positive (Nat.two_pow_pos k)).ne').mpr
  rw [Nat.pow_add, Nat.add_right_comm, Nat.pow_add]
  exact ⟨Nat.mul_le_mul_right _ (Nat.log2_self_le positive.ne'),
    Nat.mul_lt_mul_of_pos_right Nat.lt_log2_self (Nat.two_pow_pos k)⟩

/-- A normal number with zeros behind its mantissa is rounded to itself. -/
theorem roundWithAccuracy_normal (sign : Sign) {mantissa : Nat} {exponent : Int}
    (normal : Normal mantissa exponent) (k : Nat) :
    ∃ positive, roundWithAccuracy .binary64 sign (mantissa * 2 ^ k) (exponent - k) .exact =
      .finite sign mantissa exponent positive := by
  have size : (mantissa * 2 ^ k).log2 = 52 + k := by
    rw [log2_mul_two_pow normal.positive, log2_of_bounds normal.leading normal.narrow]
  have exact := roundDiv_mul mantissa (Nat.two_pow_pos k)
  have rounded := roundWithAccuracy_of_lt sign (exponent - k) size
    (by have := normal.least; omega) (by rw [exact]; exact normal.narrow)
  simpa only [exact, Int.sub_add_cancel] using rounded

/-- The normal number of a whole number with at most 53 binary digits. -/
theorem normal_of_lt {n : Nat} (positive : 0 < n) (small : n < 2 * hiddenBit) :
    Normal (n * 2 ^ (52 - n.log2)) (n.log2 - 52) := by
  have size := log2_of_lt small
  have leading := log2_mul_two_pow positive (52 - n.log2)
  rw [Nat.add_sub_cancel' size] at leading
  obtain ⟨low, high⟩ := unit_bounds (k := 0) leading
  exact ⟨by omega, by omega, by omega, by omega⟩

/-- A short whole number is lengthened to 53 binary digits. -/
theorem ofNat_of_lt {n : Nat} (positive : 0 < n) (small : n < 2 * hiddenBit) :
    ∃ some, UnpackedFloat.ofNat .binary64 n =
      .finite .positive (n * 2 ^ (52 - n.log2)) (n.log2 - 52) some := by
  have size := log2_of_lt small
  have target : Format.binary64.targetExponent (totalExponent n 0) = n.log2 - 52 := by
    rw [targetExponent_eq, totalExponent]
    omega
  have room : (0 - ((n.log2 : Int) - 52)).toNat = 52 - n.log2 := by omega
  have last : 0 - ((52 - n.log2 : Nat) : Int) = n.log2 - 52 := by omega
  have above : compare (n : Int) 0 = .gt := by
    rw [compare_gt_iff_gt]
    omega
  have rounded := roundWithAccuracy_normal .positive (normal_of_lt positive small) 0
  rw [Nat.pow_zero, Nat.mul_one, Nat.cast_zero, Int.sub_zero] at rounded
  simp only [UnpackedFloat.ofNat, UnpackedFloat.ofInt, UnpackedFloat.normalize, above,
    Int.toNat_natCast, UnpackedFloat.round, decreaseExponent, target, room, last, Nat.shiftLeft_eq]
  exact rounded

/-- Times one a normal number stays what it is. -/
theorem mul_one_of_normal {mantissa : Nat} {exponent : Int} (normal : Normal mantissa exponent)
    (some : 0 < mantissa) :
    Float.ofModel (.pack (.finite .positive mantissa exponent some)) *
        Float.ofBits 0x3FF0000000000000 =
      .ofModel (.pack (.finite .positive mantissa exponent some)) := by
  have one : (Float.ofBits 0x3FF0000000000000).toModel.unpack =
      .finite .positive (2 ^ 52) (-52) (by decide) := rfl
  obtain ⟨_, rounded⟩ := roundWithAccuracy_normal .positive normal 52
  change Float.ofModel (.pack (UnpackedFloat.mul .binary64
    (Float.Model.pack (.finite .positive mantissa exponent some)).unpack
    (Float.ofBits 0x3FF0000000000000).toModel.unpack)) = _
  rw [unpack_pack normal, one, UnpackedFloat.mul]
  exact congrArg (fun x => Float.ofModel (.pack x)) rounded

theorem binary_of_lt {n : Nat} (small : n < 2 * hiddenBit) :
    binary (n * 2 ^ (52 - n.log2)) (n.log2 - 52) = n := by
  have size := log2_of_lt small
  have power : ((n.log2 : Int) - 52) = -((52 - n.log2 : Nat) : Int) := by omega
  rw [binary, power, zpow_neg, zpow_natCast]
  push_cast
  field_simp

/-- The number is taken as a machine word and multiplied by one. -/
theorem floatOfNat_of_lt {n : Nat} (positive : 0 < n) (small : n < 2 * hiddenBit) :
    ∃ some, Float.ofNat n =
      .ofModel (.pack (.finite .positive (n * 2 ^ (52 - n.log2)) (n.log2 - 52) some)) := by
  obtain ⟨some, lengthened⟩ := ofNat_of_lt positive small
  have word : n.toUInt64.toNat = n := by
    change n % 2 ^ 64 = n
    exact Nat.mod_eq_of_lt (by rw [hiddenBit_eq] at small; omega)
  have short : n.toUInt64.toFloat =
      .ofModel (.pack (.finite .positive (n * 2 ^ (52 - n.log2)) (n.log2 - 52) some)) := by
    change Float.ofModel (.pack (UnpackedFloat.ofNat .binary64 n.toUInt64.toNat)) = _
    rw [word, lengthened]
  have fast : n < 2 ^ 53 ∧ 0 ≤ 22 := ⟨small, by decide⟩
  refine ⟨some, ?_⟩
  change Float.ofScientific n false 0 = _
  rw [Float.ofScientific, dif_pos fast, short]
  exact mul_one_of_normal (normal_of_lt positive small) some

/-- The number is lengthened by 53 digits, of which it is rounded to the leading ones. -/
theorem floatOfNat_of_ge {n : Nat} (large : 2 * hiddenBit ≤ n) : Float.ofNat n =
    .ofModel (.pack (roundWithAccuracy .binary64 .positive (n * 2 ^ 53) (-53) .exact)) := by
  have slow : ¬(n < 2 ^ 53 ∧ 0 ≤ 22) := fun fast => Nat.not_lt.mpr large fast.1
  have some : n ≠ 0 := by
    rintro rfl
    revert large
    decide
  change Float.ofScientific n false 0 = _
  rw [Float.ofScientific, dif_neg slow]
  change Float.ofModel (.pack (UnpackedFloat.ofScientific .binary64 n 0)) = _
  have wide : (0 : Int) ≤ 2 ^ Format.binary64.exponentBits := by decide
  have width : Format.binary64.mantissaBits = 53 := rfl
  rw [UnpackedFloat.ofScientific, dif_neg some, if_neg (by omega), if_neg (by omega),
    if_pos le_rfl, UnpackedFloat.mul, Nat.shiftLeft_eq, width, Int.toNat_zero, Nat.pow_zero,
    Nat.mul_one, Int.add_zero]
  rfl

/-- A whole number turns into the normal number of its 53 leading binary digits. -/
theorem exists_normal {n : Nat} (positive : 0 < n) (bounded : n.log2 < 1023) :
    ∃ mantissa exponent some, Normal mantissa exponent ∧ binary mantissa exponent = nearest n ∧
      Float.ofNat n = .ofModel (.pack (.finite .positive mantissa exponent some)) := by
  rcases Nat.lt_or_ge n (2 * hiddenBit) with small | large
  · obtain ⟨some, converted⟩ := floatOfNat_of_lt positive small
    refine ⟨_, _, some, normal_of_lt positive small, ?_, converted⟩
    rw [binary_of_lt small, nearest_of_lt small]
  obtain ⟨k, size⟩ := exists_size large
  obtain ⟨leading, carried⟩ := roundDiv_bounds size
  have shifted : (n * 2 ^ 53).log2 = 52 + (k + 53) := by
    rw [log2_mul_two_pow positive, size, Nat.add_assoc]
  have quotient : roundDiv (n * 2 ^ 53) (2 ^ (k + 53)) = roundDiv n (2 ^ k) := by
    rw [Nat.pow_add, roundDiv_mul_mul n (2 ^ k) (Nat.two_pow_pos 53)]
  have power : (-53 : Int) + (k + 53 : Nat) = k := by omega
  have value : binary (roundDiv n (2 ^ k)) k = nearest n := by
    rw [binary, nearest, unit_eq size, zpow_natCast]
    push_cast
    rfl
  rcases carried.lt_or_eq with narrow | carry
  · have rounded := roundWithAccuracy_of_lt .positive (-53) shifted (by omega)
      (by rw [quotient]; exact narrow)
    simp only [quotient, power] at rounded
    obtain ⟨some, rounded⟩ := rounded
    refine ⟨_, _, some, ⟨leading, narrow, by omega, by omega⟩, value, ?_⟩
    rw [floatOfNat_of_ge large, rounded]
  · -- a carry leaves a power of two, whose mantissa is the leading bit alone, one place higher
    have rounded := roundWithAccuracy_of_carry .positive (-53) shifted (by omega)
      (by rw [quotient]; exact carry)
    simp only [power] at rounded
    obtain ⟨some, rounded⟩ := rounded
    refine ⟨hiddenBit, k + 1, some, ⟨le_rfl, by decide, by omega, by omega⟩, ?_, ?_⟩
    · rw [← value, carry, binary, binary, zpow_add₀ (by norm_num)]
      push_cast
      ring
    · rw [floatOfNat_of_ge large, rounded]

/-- The value of a whole number as a binary64 number, and its sign. -/
theorem parts_ofInt {n : Int} (bounded : n.natAbs.log2 < 1023) :
    ∃ mantissa exponent, parts (Float.ofInt n) = .finite (n < 0) mantissa exponent ∧
      binary mantissa exponent = nearest n.natAbs := by
  cases n with
  | ofNat n =>
    rcases Nat.eq_zero_or_pos n with rfl | positive
    · refine ⟨0, -1074, by decide +kernel, ?_⟩
      change binary 0 (-1074) = nearest 0
      rw [binary, nearest_of_lt (by decide), Nat.cast_zero, zero_mul]
    · obtain ⟨mantissa, exponent, some, normal, value, converted⟩ := exists_normal positive bounded
      refine ⟨mantissa, exponent, ?_, value⟩
      change parts (Float.ofNat n) = _
      rw [converted, parts_pack normal]
      rfl
  | negSucc n =>
    obtain ⟨mantissa, exponent, some, normal, value, converted⟩ := exists_normal n.succ_pos bounded
    refine ⟨mantissa, exponent, ?_, value⟩
    change parts (.ofModel (.pack (Float.ofNat (n + 1)).toModel.unpack.neg)) = _
    rw [converted, unpack_pack normal, UnpackedFloat.neg, parts_pack normal,
      decide_eq_true (Int.negSucc_lt_zero n)]
    rfl

end Newsreel.Decimal
