import Mathlib.Data.List.TakeDrop
import Newsreel.Text.Digits

/-!
Numbers written in decimal digits and read again.
-/

namespace Newsreel.Text

theorem digit?_of_isDigit {c : Char} (isDigit : c.isDigit = true) :
    digit? c = some (c.toNat - '0'.toNat) := by
  have bounds : '0' ≤ c ∧ c ≤ '9' := by
    simpa [Char.isDigit, Char.le_def] using isDigit
  rw [digit?, if_pos bounds]

theorem digitsFrom_of_isDigit (n : Nat) {cs : List Char} (digits : ∀ c ∈ cs, c.isDigit = true) :
    digitsFrom n cs = some (Nat.ofDigitChars 10 cs n) := by
  induction cs generalizing n with
  | nil => simp [digitsFrom]
  | cons c rest ih =>
    rw [digitsFrom, digit?_of_isDigit (digits c (by simp)), Option.bind_some,
      ih _ (fun d member => digits d (by simp [member])), Nat.ofDigitChars_cons]

theorem isDigit_of_mem_natural {n : Nat} {c : Char} (member : c ∈ (natural n).toList) :
    c.isDigit = true := by
  rw [natural, String.toList_ofList] at member
  exact Nat.isDigit_of_mem_toDigits (by decide) (by decide) member

theorem natural_ne_empty (n : Nat) : natural n ≠ "" := by
  rw [natural, Ne, ← String.toList_eq_nil_iff, String.toList_ofList]
  exact Nat.toDigits_ne_nil

theorem toList_natural_ne_nil (n : Nat) : (natural n).toList ≠ [] :=
  fun empty => natural_ne_empty n (String.toList_eq_nil_iff.mp empty)

theorem isDigit_of_charIsDigit {c : Char} (digit : c.isDigit = true) : isDigit c = true := by
  rw [isDigit, digit?_of_isDigit digit]
  rfl

theorem digits?_of_isDigit {cs : List Char} (nonempty : cs ≠ [])
    (digits : ∀ c ∈ cs, c.isDigit = true) : digits? cs = some (Nat.ofDigitChars 10 cs 0) := by
  cases cs with
  | nil => exact absurd rfl nonempty
  | cons c cs => exact digitsFrom_of_isDigit 0 digits

theorem ofDigitChars_natural (n : Nat) : Nat.ofDigitChars 10 (natural n).toList 0 = n := by
  rw [natural, String.toList_ofList, Nat.ofDigitChars_ten_toDigits]

theorem digits?_natural (n : Nat) : digits? (natural n).toList = some n := by
  rw [digits?_of_isDigit (toList_natural_ne_nil n) fun _ => isDigit_of_mem_natural,
    ofDigitChars_natural]

theorem natural_injective {m n : Nat} (same : natural m = natural n) : m = n := by
  rw [← ofDigitChars_natural m, same, ofDigitChars_natural]

/-- An index is read back from its digits as long as a machine word holds it. -/
theorem count?_natural {n : Nat} (small : n < countLimit) : count? (natural n) = some n := by
  have notSigned : ∀ rest, (natural n).toList ≠ '+' :: rest := by
    intro rest signed
    have isDigit := isDigit_of_mem_natural (n := n) (c := '+') (by simp [signed])
    revert isDigit
    decide
  rw [count?]
  split
  · rename_i rest signed
    exact absurd signed (notSigned rest)
  · rw [digits?_natural, Option.filter_some, if_pos (by simpa using small)]

/-- What goes on with a kind of character ends where the first other character stands. -/
theorem span_append {p : Char → Bool} {front rest : List Char} (all : ∀ c ∈ front, p c = true)
    (ends : ∀ c ∈ rest.head?, p c = false) : (front ++ rest).span p = (front, rest) := by
  rw [List.span_eq_takeWhile_dropWhile, List.takeWhile_append_of_pos all,
    List.dropWhile_append_of_pos all]
  cases rest with
  | nil => simp
  | cons c rest => simp [ends c rfl]

theorem mem_integer {n : Int} {c : Char} (member : c ∈ (integer n).toList) :
    c = '-' ∨ c.isDigit = true := by
  rw [integer] at member
  split at member
  · rw [String.toList_append, List.mem_append] at member
    exact member.imp List.mem_singleton.mp isDigit_of_mem_natural
  · exact .inr (isDigit_of_mem_natural member)

theorem toList_integer_ne_nil (n : Int) : (integer n).toList ≠ [] := by
  rw [integer]
  split
  · simp
  · exact toList_natural_ne_nil n.natAbs

theorem integer_injective {m n : Int} (same : integer m = integer n) : m = n := by
  have noSign {k j : Nat} : "-" ++ natural k ≠ natural j := by
    intro same
    have member : '-' ∈ (natural j).toList := by
      rw [← same, String.toList_append]
      exact List.mem_append_left _ List.mem_cons_self
    have digit := isDigit_of_mem_natural member
    revert digit
    decide
  rw [integer, integer] at same
  split at same <;> split at same
  · have sizes := natural_injective (String.append_right_inj "-" |>.mp same)
    omega
  · exact absurd same noSign
  · exact absurd same.symm noSign
  · have sizes := natural_injective same
    omega

end Newsreel.Text
