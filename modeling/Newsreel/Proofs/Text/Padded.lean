import Mathlib.Tactic.IntervalCases
import Newsreel.Proofs.Text.Segments

/-!
Numbers in a fixed number of digits.

The digits of such numbers, compared as texts from left to right, are in the order of the numbers.
-/

namespace Newsreel.Text

/-- Between texts of one length the first difference decides, whatever comes behind. -/
theorem append_lt_append {front back : List Char} (length : front.length = back.length)
    (less : front < back) (rest more : List Char) : front ++ rest < back ++ more := by
  induction front generalizing back with
  | nil =>
    rw [List.length_nil, eq_comm, List.length_eq_zero_iff] at length
    subst length
    exact absurd less (List.not_lt_nil _)
  | cons c cs ih =>
    cases back with
    | nil => cases length
    | cons d ds =>
      rw [List.cons_append, List.cons_append, List.cons_lt_cons_iff]
      rcases List.cons_lt_cons_iff.mp less with smaller | ⟨same, less⟩
      · exact Or.inl smaller
      · exact Or.inr ⟨same, ih (Nat.succ.inj length) less⟩

theorem toList_padded (width n : Nat) : (padded width n).toList =
    List.replicate (width - (Nat.toDigits 10 n).length) '0' ++ Nat.toDigits 10 n := by
  rw [padded, natural, String.toList_append, String.toList_ofList, String.length_ofList,
    String.toList_ofList]

/-- The last digit behind those of the tens. -/
theorem toList_padded_succ {width : Nat} (positive : 0 < width) (n : Nat) :
    (padded (width + 1) n).toList =
      (padded width (n / 10)).toList ++ [(n % 10).digitChar] := by
  rw [toList_padded, toList_padded]
  by_cases small : n < 10
  · have tens : n / 10 = 0 := Nat.div_eq_of_lt small
    have width_eq : width = width - 1 + 1 := by omega
    rw [tens, Nat.mod_eq_of_lt small, Nat.toDigits_of_lt_base small, Nat.toDigits_zero]
    rw [List.length_singleton, List.length_singleton, Nat.add_sub_cancel, width_eq,
      List.replicate_succ', Nat.add_sub_cancel]
  · rw [Nat.toDigits_of_base_le (by decide) (by omega), List.length_append, List.length_singleton,
      Nat.add_sub_add_right, List.append_assoc]

theorem toList_padded_one {n : Nat} (fits : n < 10) : (padded 1 n).toList = [n.digitChar] := by
  rw [toList_padded, Nat.toDigits_of_lt_base fits]
  rfl

/-- The last digits behind those of the rest. -/
theorem toList_padded_add {width : Nat} (positive : 0 < width) (more n : Nat) :
    (padded (width + (more + 1)) n).toList =
      (padded width (n / 10 ^ (more + 1))).toList ++
        (padded (more + 1) (n % 10 ^ (more + 1))).toList := by
  induction more generalizing n with
  | zero =>
    rw [toList_padded_succ positive, Nat.zero_add, Nat.pow_one,
      toList_padded_one (Nat.mod_lt n (by decide))]
  | succ more ih =>
    have front : n / 10 / 10 ^ (more + 1) = n / 10 ^ (more + 1 + 1) := by
      rw [Nat.div_div_eq_div_mul, Nat.pow_succ' (n := more + 1)]
    have middle : n / 10 % 10 ^ (more + 1) = n % 10 ^ (more + 1 + 1) / 10 := by
      rw [Nat.pow_succ' (n := more + 1), Nat.mod_mul_right_div_self]
    have last : n % 10 ^ (more + 1 + 1) % 10 = n % 10 :=
      Nat.mod_mod_of_dvd n (Dvd.intro_left (10 ^ (more + 1)) rfl)
    calc (padded (width + (more + 1 + 1)) n).toList
        = (padded (width + (more + 1)) (n / 10)).toList ++ [(n % 10).digitChar] :=
          toList_padded_succ (Nat.add_pos_left positive _) n
      _ = (padded width (n / 10 ^ (more + 1 + 1))).toList ++
            ((padded (more + 1) (n % 10 ^ (more + 1 + 1) / 10)).toList ++
              [(n % 10 ^ (more + 1 + 1) % 10).digitChar]) := by
          rw [ih, front, middle, last, List.append_assoc]
      _ = (padded width (n / 10 ^ (more + 1 + 1))).toList ++
            (padded (more + 1 + 1) (n % 10 ^ (more + 1 + 1))).toList := by
          rw [toList_padded_succ (Nat.succ_pos more)]

theorem length_padded {width n : Nat} (positive : 0 < width) (fits : n < 10 ^ width) :
    (padded width n).toList.length = width := by
  induction width, positive using Nat.le_induction generalizing n with
  | base => rw [toList_padded_one (by simpa using fits), List.length_singleton]
  | succ width positive ih =>
    have tens : n / 10 < 10 ^ width := by
      rw [Nat.pow_succ] at fits
      omega
    rw [toList_padded_succ positive, List.length_append, ih tens, List.length_singleton]

/-- A number of more digits than there is room for is written in as many as it has. -/
theorem exists_width {width : Nat} (positive : 0 < width) (n : Nat) :
    ∃ wide, 0 < wide ∧ n < 10 ^ wide ∧ (padded width n).toList = (padded wide n).toList := by
  by_cases fits : n < 10 ^ width
  · exact ⟨width, positive, fits, rfl⟩
  · have longer : width < (Nat.toDigits 10 n).length :=
      Nat.lt_of_not_le fun short => fits ((Nat.length_toDigits_le_iff (by decide) positive).mp short)
    have some : 0 < (Nat.toDigits 10 n).length := Nat.lt_trans positive longer
    refine ⟨(Nat.toDigits 10 n).length, some,
      (Nat.length_toDigits_le_iff (by decide) some).mp (Nat.le_refl _), ?_⟩
    rw [toList_padded, toList_padded, Nat.sub_self, Nat.sub_eq_zero_of_le longer.le]

theorem digitChar_lt_digitChar {m n : Nat} (less : m < n) (fits : n < 10) :
    m.digitChar < n.digitChar := by
  interval_cases n <;> interval_cases m <;> decide

/-- Digits of one number are ordered like the numbers. -/
theorem padded_lt_padded {width m n : Nat} (positive : 0 < width) (less : m < n)
    (fits : n < 10 ^ width) : (padded width m).toList < (padded width n).toList := by
  induction width, positive using Nat.le_induction generalizing m n with
  | base =>
    have fits : n < 10 := by simpa using fits
    rw [toList_padded_one fits, toList_padded_one (by omega), List.cons_lt_cons_iff]
    exact Or.inl (digitChar_lt_digitChar less fits)
  | succ width positive ih =>
    have tens : n / 10 < 10 ^ width := by
      rw [Nat.pow_succ] at fits
      omega
    rw [toList_padded_succ positive, toList_padded_succ positive]
    by_cases same : m / 10 = n / 10
    · rw [same]
      refine List.append_left_lt (List.cons_lt_cons_iff.mpr (Or.inl ?_))
      exact digitChar_lt_digitChar (by omega) (Nat.mod_lt n (by decide))
    · have length : (padded width (m / 10)).toList.length =
          (padded width (n / 10)).toList.length := by
        rw [length_padded positive (by omega), length_padded positive tens]
      exact append_lt_append length (ih (by omega) tens) _ _

/-- A number comes first, and where it is the same, what stands behind it decides. -/
theorem padded_append_lt {width m n : Nat} {rest more : List Char} (positive : 0 < width)
    (fits : n < 10 ^ width) (order : m < n ∨ (m = n ∧ rest < more)) :
    (padded width m).toList ++ rest < (padded width n).toList ++ more := by
  rcases order with less | ⟨rfl, less⟩
  · have length : (padded width m).toList.length = (padded width n).toList.length := by
      rw [length_padded positive (by omega), length_padded positive fits]
    exact append_lt_append length (padded_lt_padded positive less fits) _ _
  · exact List.append_left_lt less

/-! What reading goes by. -/

theorem digit?_digitChar {n : Nat} (fits : n < 10) : digit? n.digitChar = some n := by
  interval_cases n <;> decide

theorem isDigit_of_mem_padded {width n : Nat} {c : Char} (member : c ∈ (padded width n).toList) :
    c.isDigit = true := by
  rw [toList_padded, List.mem_append] at member
  rcases member with zero | digit
  · rw [List.eq_of_mem_replicate zero]
    decide
  · exact Nat.isDigit_of_mem_toDigits (by decide) (by decide) digit

theorem padded_eq_cons {width n : Nat} (positive : 0 < width) (fits : n < 10 ^ width) :
    ∃ c cs, (padded width n).toList = c :: cs ∧ c.isDigit = true := by
  have length := length_padded positive fits
  cases digits : (padded width n).toList with
  | nil =>
    rw [digits] at length
    exact absurd length.symm positive.ne'
  | cons c cs => exact ⟨c, cs, rfl, isDigit_of_mem_padded (digits ▸ List.mem_cons_self)⟩

end Newsreel.Text
