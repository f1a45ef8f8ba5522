import Mathlib.Algebra.Order.Field.Power
import Mathlib.Data.Rat.Cast.Order
import Mathlib.Tactic.FieldSimp
import Mathlib.Tactic.Linarith
import Mathlib.Tactic.NormNum
import Mathlib.Tactic.Positivity
import Mathlib.Tactic.Ring
import Newsreel.Decimal.Shortest

/-!
The decimal digits of a binary64 number tell it from every other one.

The search for digits stops at a decimal number in the interval of the binary one, and it does stop:
with seventeen digits the decimal grid is finer than the interval is wide. Two intervals have no
number in common, since where their ends meet one of them is open.
-/

namespace Newsreel.Decimal

/-- The number that digits and a power of ten stand for. -/
def decimal (digits : Nat) (power : Int) : ℚ := digits * (10 : ℚ) ^ power

theorem zpow_mul_pow_toNat_neg {base : ℚ} (positive : 0 < base) (power : Int) :
    base ^ power * base ^ (-power).toNat = base ^ power.toNat := by
  obtain ⟨n, rfl | rfl⟩ := power.eq_nat_or_neg
  · simp
  · simp [positive.ne']

theorem decimal_mul (digits : Nat) (power : Int) :
    decimal digits power * 10 ^ (-power).toNat = digits * 10 ^ power.toNat := by
  rw [decimal, mul_assoc, zpow_mul_pow_toNat_neg (by norm_num)]

theorem decimal_pow_mul (places digits : Nat) (power : Int) :
    decimal (10 ^ places * digits) power = decimal digits (power + places) := by
  rw [decimal, decimal, zpow_add₀ (by norm_num), zpow_natCast]
  push_cast
  ring

theorem pow_length_toDigits_le {n : Nat} (positive : 0 < n) :
    10 ^ ((Nat.toDigits 10 n).length - 1) ≤ n := by
  by_contra above
  rw [not_le] at above
  rcases Nat.eq_zero_or_pos ((Nat.toDigits 10 n).length - 1) with one | more
  · rw [one] at above
    omega
  · have := (Nat.length_toDigits_le_iff (by decide) more).mpr above
    omega

/-! ## Numbers as mantissa and exponent -/

/-- The mantissas and exponents of the positive numbers: only where the exponent cannot get smaller
does a mantissa do without its leading bit. -/
structure Canonical (mantissa : Nat) (exponent : Int) : Prop where
  positive : 0 < mantissa
  narrow : mantissa < 2 * hiddenBit
  least : -1074 ≤ exponent
  leading : hiddenBit ≤ mantissa ∨ exponent = -1074

section

variable {x y : Float} {negative : Bool} {mantissa : Nat} {exponent : Int}

/-- The fields of the word of a finite number. -/
theorem fields_of_parts (finite : parts x = .finite negative mantissa exponent) :
    negative = decide (signBit ≤ x.toBits.toNat) ∧
      (x.toBits.toNat / hiddenBit % 2048 = 0 ∧ mantissa = x.toBits.toNat % hiddenBit ∧
          exponent = -1074 ∨
        0 < x.toBits.toNat / hiddenBit % 2048 ∧
          mantissa = hiddenBit + x.toBits.toNat % hiddenBit ∧
          exponent = (x.toBits.toNat / hiddenBit % 2048 : Nat) - 1075) := by
  simp only [parts] at finite
  split at finite
  · split at finite <;> cases finite
  · split at finite
    · next subnormal =>
      cases finite
      exact ⟨rfl, .inl ⟨subnormal, rfl, rfl⟩⟩
    · next normal =>
      cases finite
      exact ⟨rfl, .inr ⟨Nat.pos_of_ne_zero normal, rfl, rfl⟩⟩

theorem canonical_of_parts (finite : parts x = .finite negative mantissa exponent)
    (positive : 0 < mantissa) : Canonical mantissa exponent := by
  have fraction : x.toBits.toNat % hiddenBit < hiddenBit := Nat.mod_lt _ (by decide)
  obtain ⟨-, ⟨-, rfl, rfl⟩ | ⟨normal, rfl, rfl⟩⟩ := fields_of_parts finite
  · exact ⟨positive, by omega, le_rfl, .inr rfl⟩
  · exact ⟨positive, by omega, by omega, .inl (by omega)⟩

/-- A finite number is known by its parts. -/
theorem parts_injective (first : parts x = .finite negative mantissa exponent)
    (second : parts y = .finite negative mantissa exponent) : x = y := by
  have words : x.toBits.toNat = y.toBits.toNat := by
    have boundx : x.toBits.toNat < 2 ^ 64 := x.toBits.toNat_lt
    have boundy : y.toBits.toNat < 2 ^ 64 := y.toBits.toNat_lt
    obtain ⟨signx, fieldsx⟩ := fields_of_parts first
    obtain ⟨signy, fieldsy⟩ := fields_of_parts second
    have signs : signBit ≤ x.toBits.toNat ↔ signBit ≤ y.toBits.toNat := by
      rw [← decide_eq_decide, ← signx, ← signy]
    simp only [signBit, hiddenBit, Nat.pow_eq] at signs fieldsx fieldsy
    omega
  obtain ⟨⟨_, _⟩⟩ := x
  obtain ⟨⟨_, _⟩⟩ := y
  cases UInt64.toNat_inj.mp words
  rfl

end

/-! ## Decimal numbers in an interval -/

namespace Interval

/-- A number between the ends, or on one of them where they belong to the interval. -/
structure Contains (i : Interval) (x : ℚ) : Prop where
  low : i.low ≤ x * i.denominator
  high : x * i.denominator ≤ i.high
  inside : i.closed = false → i.low < x * i.denominator ∧ x * i.denominator < i.high

theorem holds_iff {i : Interval} {grid : Int} {candidate : Nat} :
    i.holds grid candidate = true ↔ i.Contains (decimal candidate grid) := by
  have down : (0 : ℚ) < 10 ^ (-grid).toNat := by positivity
  have point : decimal candidate grid * i.denominator * 10 ^ (-grid).toNat =
      (candidate * 10 ^ grid.toNat * i.denominator : Nat) := by
    rw [mul_right_comm, decimal_mul]
    push_cast
    rfl
  have lower (bound : Nat) : bound * 10 ^ (-grid).toNat ≤
      candidate * 10 ^ grid.toNat * i.denominator ↔
        (bound : ℚ) ≤ decimal candidate grid * i.denominator := by
    rw [← mul_le_mul_iff_left₀ down, point]
    exact_mod_cast Iff.rfl
  have upper (bound : Nat) : candidate * 10 ^ grid.toNat * i.denominator ≤
      bound * 10 ^ (-grid).toNat ↔ decimal candidate grid * i.denominator ≤ (bound : ℚ) := by
    rw [← mul_le_mul_iff_left₀ down, point]
    exact_mod_cast Iff.rfl
  simp only [holds, Nat.pow_eq]
  cases closed : i.closed with
  | true =>
    simp only [if_true, Bool.decide_and, Bool.and_eq_true, decide_eq_true_eq, lower, upper]
    exact ⟨fun ⟨low, high⟩ => ⟨low, high, by simp [closed]⟩, fun inner => ⟨inner.low, inner.high⟩⟩
  | false =>
    simp only [Bool.false_eq_true, if_false, Bool.decide_and, Bool.and_eq_true, decide_eq_true_eq,
      ← Nat.not_le, lower, upper, not_le]
    exact ⟨fun ⟨low, high⟩ => ⟨low.le, high.le, fun _ => ⟨low, high⟩⟩, fun inner => inner.inside closed⟩

theorem Contains.of_lt {i : Interval} {x : ℚ} (low : i.low < x * i.denominator)
    (high : x * i.denominator < i.high) : i.Contains x :=
  ⟨low.le, high.le, fun _ => ⟨low, high⟩⟩

/-! ## The search -/

theorem contains_of_onGrid? {i : Interval} {grid : Int} {digits : Nat}
    (hit : i.onGrid? grid = some digits) : i.Contains (decimal digits grid) := by
  simp only [onGrid?] at hit
  split at hit
  · cases hit
  · next lower _ =>
    cases hit
    exact holds_iff.mp lower
  · next _ upper =>
    cases hit
    exact holds_iff.mp upper
  · next lower upper =>
    split at hit <;> cases hit
    · exact holds_iff.mp lower
    · exact holds_iff.mp upper

/-- The values of a positive interval lie in order. -/
structure Ordered (i : Interval) : Prop where
  low : i.low < i.value
  high : i.value < i.high
  denominator : 0 < i.denominator

/-- Where a grid has no point in an interval, the interval is no wider than the grid. -/
theorem Ordered.width_le {i : Interval} (ordered : i.Ordered) {grid : Int}
    (miss : i.onGrid? grid = none) : (i.high : ℚ) ≤ i.low + 10 ^ grid * i.denominator := by
  have down : (0 : ℚ) < 10 ^ (-grid).toNat := by positivity
  have scaled (candidate : Nat) : decimal candidate grid * i.denominator * 10 ^ (-grid).toNat =
      (candidate * (i.denominator * 10 ^ grid.toNat) : Nat) := by
    rw [mul_right_comm, decimal_mul]
    push_cast
    ring
  have low : (i.low : ℚ) < i.value := by exact_mod_cast ordered.low
  have high : (i.value : ℚ) < i.high := by exact_mod_cast ordered.high
  simp only [onGrid?] at miss
  set unit := i.denominator * Nat.pow 10 grid.toNat with unit_eq
  set lower := i.value * Nat.pow 10 (-grid).toNat / unit
  have positive : 0 < unit := Nat.mul_pos ordered.denominator (Nat.pow_pos (by decide))
  have before : decimal lower grid * i.denominator ≤ i.value := by
    rw [← mul_le_mul_iff_left₀ down, scaled]
    exact_mod_cast Nat.div_mul_le_self _ _
  have behind : i.value < decimal (lower + 1 : Nat) grid * i.denominator := by
    rw [← mul_lt_mul_iff_left₀ down, scaled]
    exact_mod_cast (Nat.div_lt_iff_lt_mul positive).mp (Nat.lt_succ_self _)
  have step : decimal (lower + 1) grid * i.denominator =
      decimal lower grid * i.denominator + 10 ^ grid * i.denominator := by
    rw [decimal, decimal]
    push_cast
    ring
  have outside : ¬ i.Contains (decimal lower grid) ∧ ¬ i.Contains (decimal (lower + 1) grid) := by
    rw [← holds_iff, ← holds_iff]
    split at miss
    · next lowerOut upperOut => exact ⟨by simp [lowerOut], by simp [upperOut]⟩
    · cases miss
    · cases miss
    · split at miss <;> cases miss
  have left : decimal lower grid * i.denominator ≤ i.low :=
    not_lt.mp fun within => outside.1 (.of_lt within (before.trans_lt high))
  have right : i.high ≤ decimal (lower + 1) grid * i.denominator :=
    not_lt.mp fun within => outside.2 (.of_lt (low.trans behind) within)
  linarith

/-- The value is no less than the power of ten of its leading digit. -/
theorem Ordered.magnitude_le {i : Interval} (ordered : i.Ordered) :
    (10 : ℚ) ^ (i.magnitude - 1) * i.denominator ≤ i.value := by
  have positive : 0 < i.value := Nat.zero_lt_of_lt ordered.low
  have small {width : Nat} (bound : i.denominator ≤ i.value * 10 ^ width) :
      (10 : ℚ) ^ (-(width : Int)) * i.denominator ≤ i.value := by
    rw [zpow_neg, zpow_natCast, inv_mul_le_iff₀ (by positivity), mul_comm]
    exact_mod_cast bound
  unfold magnitude
  split
  · next whole =>
    have least := pow_length_toDigits_le (Nat.div_pos whole ordered.denominator)
    rw [← Int.natCast_pred_of_pos Nat.length_toDigits_pos, zpow_natCast]
    exact_mod_cast (Nat.mul_le_mul_right _ least).trans (Nat.div_mul_le_self _ _)
  · dsimp only
    set width := (Nat.toDigits 10 (i.denominator / i.value)).length with width_eq
    have digits : 0 < width := Nat.length_toDigits_pos
    split
    · next close =>
      rw [show 2 - (width : Int) - 1 = -((width - 1 : Nat) : Int) by omega]
      exact small close
    · rw [show 1 - (width : Int) - 1 = -(width : Int) by omega]
      refine small ?_
      have := (Nat.length_toDigits_le_iff (by decide) digits).mp width_eq.ge
      rw [Nat.div_lt_iff_lt_mul positive, mul_comm] at this
      exact this.le

/-- A search that comes by a grid with a hit ends in the interval. -/
theorem contains_search {i : Interval} {magnitude : Int} {places tries hit : Nat}
    (first : places ≤ hit) (last : hit < places + tries)
    (found : i.onGrid? (magnitude - hit) ≠ none) :
    i.Contains (decimal (i.search magnitude places tries).1 (i.search magnitude places tries).2) := by
  induction tries generalizing places with
  | zero => omega
  | succ tries ih =>
    rw [search]
    split
    · next digits here =>
      have contained := contains_of_onGrid? here
      split
      · next power =>
        rwa [power, Nat.pow_eq, ← Nat.mul_one (10 ^ places), decimal_pow_mul,
          sub_add_cancel] at contained
      · exact contained
    · next miss =>
      have later : places ≠ hit := fun same => found (same ▸ miss)
      exact ih (by omega) (by omega)

end Interval

/-! ## The interval of a number -/

/-- The width of the lower half of an interval, in quarters of the last bit. -/
def below (mantissa : Nat) (exponent : Int) : Nat :=
  if mantissa = hiddenBit ∧ -1074 < exponent then 1 else 2

theorem below_cases (mantissa : Nat) (exponent : Int) :
    below mantissa exponent = 1 ∧ mantissa = hiddenBit ∨
      below mantissa exponent = 2 ∧ ¬ (mantissa = hiddenBit ∧ -1074 < exponent) := by
  rw [below]
  split
  · next leading => exact .inl ⟨rfl, leading.1⟩
  · next further => exact .inr ⟨rfl, further⟩

namespace Canonical

variable {mantissa : Nat} {exponent : Int}

theorem ordered (canonical : Canonical mantissa exponent) : (interval mantissa exponent).Ordered := by
  have positive := canonical.positive
  have scale : 0 < Nat.pow 2 (exponent - 2).toNat := Nat.pow_pos (by decide)
  refine ⟨?_, ?_, Nat.pow_pos (by decide)⟩
  · refine Nat.mul_lt_mul_of_pos_right ?_ scale
    split <;> omega
  · exact Nat.mul_lt_mul_of_pos_right (by omega) scale

/-- At seventeen digits the grid is too fine to miss the interval. -/
theorem seventeen (canonical : Canonical mantissa exponent) :
    (interval mantissa exponent).onGrid? ((interval mantissa exponent).magnitude - 17) ≠ none := by
  intro miss
  have large := canonical.ordered.magnitude_le
  set i := interval mantissa exponent
  -- The value has 53 bits, so it is less than ten quadrillion times the width.
  have wide : (10 ^ 16 * i.high : ℚ) ≤ 10 ^ 16 * i.low + i.value := by
    have spacing : (10 : ℚ) ^ 16 * 10 ^ (i.magnitude - 17) = 10 ^ (i.magnitude - 1) := by
      rw [← zpow_natCast, ← zpow_add₀ (by norm_num)]
      congr 1
      omega
    have width := canonical.ordered.width_le miss
    rw [← spacing] at large
    linarith
  have scale : 0 < Nat.pow 2 (exponent - 2).toNat := Nat.pow_pos (by decide)
  have least : 10 ^ 16 * (4 * mantissa + 2) ≤
      10 ^ 16 * (4 * mantissa - below mantissa exponent) + 4 * mantissa := by
    refine Nat.le_of_mul_le_mul_right ?_ scale
    rw [Nat.add_mul, Nat.mul_assoc, Nat.mul_assoc]
    exact_mod_cast wide
  have narrow := canonical.narrow
  have positive := canonical.positive
  have kind := below_cases mantissa exponent
  simp only [hiddenBit, Nat.pow_eq] at narrow kind
  omega

theorem contains_shortest (canonical : Canonical mantissa exponent) :
    (interval mantissa exponent).Contains
      (decimal (shortest mantissa exponent).1 (shortest mantissa exponent).2) :=
  Interval.contains_search (by decide) (by decide) canonical.seventeen

theorem shortest_pos (canonical : Canonical mantissa exponent) :
    0 < decimal (shortest mantissa exponent).1 (shortest mantissa exponent).2 := by
  have positive := canonical.positive
  have kind := below_cases mantissa exponent
  have low : 0 < (interval mantissa exponent).low :=
    Nat.mul_pos (show 0 < 4 * mantissa - below mantissa exponent by omega) (Nat.pow_pos (by decide))
  have above : (0 : ℚ) < (interval mantissa exponent).low := by exact_mod_cast low
  exact pos_of_mul_pos_left (above.trans_le canonical.contains_shortest.low) (Nat.cast_nonneg _)

end Canonical

/-- The numbers that an interval contains, with its ends in quarters of the last bit. -/
theorem Interval.Contains.ends {mantissa : Nat} {exponent : Int} {x : ℚ}
    (contained : (interval mantissa exponent).Contains x) :
    (4 * mantissa - below mantissa exponent : Nat) * (2 : ℚ) ^ (exponent - 2) ≤ x ∧
    x ≤ (4 * mantissa + 2 : Nat) * (2 : ℚ) ^ (exponent - 2) ∧
    (mantissa % 2 = 1 →
      (4 * mantissa - below mantissa exponent : Nat) * (2 : ℚ) ^ (exponent - 2) < x ∧
      x < (4 * mantissa + 2 : Nat) * (2 : ℚ) ^ (exponent - 2)) := by
  have scaled (quarters : Nat) : ((quarters * Nat.pow 2 (exponent - 2).toNat : Nat) : ℚ) =
      quarters * 2 ^ (exponent - 2) * (Nat.pow 2 (2 - exponent).toNat : Nat) := by
    simp only [Nat.pow_eq]
    push_cast
    rw [mul_assoc, ← neg_sub exponent 2, zpow_mul_pow_toNat_neg (by norm_num)]
  have positive : (0 : ℚ) < (Nat.pow 2 (2 - exponent).toNat : Nat) := by
    exact_mod_cast Nat.pow_pos (by decide)
  obtain ⟨low, high, inside⟩ := contained
  simp only [interval, scaled] at low high inside
  refine ⟨le_of_mul_le_mul_right low positive, le_of_mul_le_mul_right high positive, fun odd => ?_⟩
  obtain ⟨left, right⟩ := inside (by simp [odd])
  exact ⟨lt_of_mul_lt_mul_right left positive.le, lt_of_mul_lt_mul_right right positive.le⟩

namespace Canonical

variable {mantissa other : Nat} {exponent power : Int} {x : ℚ}

/-- Where two intervals meet, the lower end of the coarser one is not above the upper end of the finer
one, and is below it where one of them is open. -/
theorem ends_le (first : (interval mantissa exponent).Contains x)
    (second : (interval other power).Contains x) (order : exponent ≤ power) :
    (4 * other - below other power) * 2 ^ (power - exponent).toNat ≤ 4 * mantissa + 2 ∧
      (mantissa % 2 = 1 ∨ other % 2 = 1 →
        (4 * other - below other power) * 2 ^ (power - exponent).toNat < 4 * mantissa + 2) := by
  have unit : (0 : ℚ) < 2 ^ (exponent - 2) := by positivity
  have scale : (2 : ℚ) ^ (power - 2) = 2 ^ (power - exponent).toNat * 2 ^ (exponent - 2) := by
    rw [← zpow_natCast, ← zpow_add₀ (by norm_num)]
    congr 1
    omega
  obtain ⟨-, high, inside⟩ := first.ends
  obtain ⟨low, -, within⟩ := second.ends
  rw [scale, ← mul_assoc] at low within
  constructor
  · have bound := le_of_mul_le_mul_right (low.trans high) unit
    exact_mod_cast bound
  · rintro (odd | odd)
    · have bound := lt_of_mul_lt_mul_right (low.trans_lt (inside odd).2) unit.le
      exact_mod_cast bound
    · have bound := lt_of_mul_lt_mul_right ((within odd).1.trans_le high) unit.le
      exact_mod_cast bound

/-- No number lies in the intervals of two. -/
theorem unique_of_le (one : Canonical mantissa exponent) (two : Canonical other power)
    (first : (interval mantissa exponent).Contains x) (second : (interval other power).Contains x)
    (order : exponent ≤ power) (increasing : exponent = power → mantissa ≤ other) :
    mantissa = other ∧ exponent = power := by
  have narrow := one.narrow
  have least := one.least
  have leading := two.leading
  have kind := below_cases other power
  obtain ⟨le, lt⟩ := ends_le first second order
  simp only [hiddenBit, Nat.pow_eq] at narrow leading kind
  -- Neighbours touch, but of two with one exponent one is odd, and so is the last one before the
  -- exponent grows.
  rcases order.eq_or_lt with rfl | finer
  · rw [sub_self, Int.toNat_zero, pow_zero, Nat.mul_one] at le lt
    have := increasing rfl
    omega
  · have twice : 2 ≤ 2 ^ (power - exponent).toNat := Nat.le_self_pow (by omega) 2
    have grown := Nat.mul_le_mul_left (4 * other - below other power) twice
    omega

/-- The digits of a number stand for no other one. -/
theorem shortest_injective (one : Canonical mantissa exponent) (two : Canonical other power)
    (same : decimal (shortest mantissa exponent).1 (shortest mantissa exponent).2 =
      decimal (shortest other power).1 (shortest other power).2) :
    mantissa = other ∧ exponent = power := by
  have first := one.contains_shortest
  have second := two.contains_shortest
  rw [← same] at second
  rcases lt_trichotomy exponent power with finer | rfl | coarser
  · exact one.unique_of_le two first second finer.le fun equal => absurd equal finer.ne
  · rcases le_total mantissa other with increasing | decreasing
    · exact one.unique_of_le two first second le_rfl fun _ => increasing
    · obtain ⟨rfl, -⟩ := two.unique_of_le one second first le_rfl fun _ => decreasing
      exact ⟨rfl, rfl⟩
  · obtain ⟨rfl, rfl⟩ := two.unique_of_le one second first coarser.le fun equal =>
      absurd equal coarser.ne
    exact ⟨rfl, rfl⟩

end Canonical

end Newsreel.Decimal
