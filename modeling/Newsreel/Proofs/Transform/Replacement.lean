import Newsreel.Proofs.Text.Occurrences
import Newsreel.Transform.Apply

/-!
How often a text is replaced.

A count that is not negative is the number of occurrences that are replaced, from the left; counting
beyond the last occurrence is the same as not counting. What has been put in is never looked at
again, so a replacement may hold what it stands for.
-/

namespace Newsreel.Transform

theorem toList_replace_of_neg (value old new : String) {count : Int} (unlimited : count < 0) :
    (replace value old new count).toList =
      Text.join new.toList (Text.cut old.toList none value.toList) := by
  rw [replace, if_pos unlimited, String.toList_ofList]

theorem toList_replace_natCast (value old new : String) (count : Nat) :
    (replace value old new count).toList =
      Text.join new.toList (Text.cut old.toList (some count) value.toList) := by
  rw [replace, if_neg (Int.not_lt.mpr (Int.natCast_nonneg count)), Int.toNat_natCast,
    String.toList_ofList]

/-- What a count makes of a text depends on the number of cuts that it allows. -/
theorem toList_replace (value old new : String) (count : Int) : ∃ cuts,
    (replace value old new count).toList =
      Text.join new.toList (Text.cut old.toList cuts value.toList) := by
  rcases Int.lt_or_le count 0 with unlimited | counted
  · exact ⟨none, toList_replace_of_neg value old new unlimited⟩
  · obtain ⟨count, rfl⟩ := Int.eq_ofNat_of_zero_le counted
    exact ⟨some count, toList_replace_natCast value old new count⟩

/-- Counts from the number of occurrences on, and counts below zero, replace every occurrence. The
first `count` occurrences are replaced else: the text stands in pieces with these occurrences between
them, and the new text takes their place. The empty text is replaced at the first boundaries between
characters. So nothing is replaced with a count of zero, and a text replaced by itself changes
nothing. -/
theorem replace_counts (value old new : String) :
    ∃ total : Nat, (∀ other, Text.Occurs old.toList value.toList other ↔ other = total) ∧
      (∀ unlimited count : Int, unlimited < 0 → (total : Int) ≤ count →
        replace value old new unlimited = replace value old new count) ∧
      (old ≠ "" → ∀ count : Nat, count ≤ total → ∃ pieces rest, pieces.length = count ∧
        Text.Parted old.toList value.toList pieces rest ∧
        value.toList = old.toList.intercalate (pieces ++ [rest]) ∧
        (replace value old new count).toList = new.toList.intercalate (pieces ++ [rest])) ∧
      (old = "" → ∀ count : Nat, (replace value old new count).toList =
        (List.range (value.toList.length + 1)).flatMap fun place =>
          (if place < count then new.toList else []) ++ value.toList[place]?.toList) ∧
      replace value old new 0 = value ∧
      ∀ count, replace value old old count = value := by
  obtain ⟨total, occurs, unique⟩ := Text.existsUnique_occurs old.toList value.toList
  have counts (other : Nat) : Text.Occurs old.toList value.toList other ↔ other = total :=
    ⟨unique other, fun same => same ▸ occurs⟩
  refine ⟨total, counts, ?_, ?_, ?_, ?_, ?_⟩
  · intro unlimited count negative beyond
    obtain ⟨count, rfl⟩ := Int.eq_ofNat_of_zero_le (Int.le_trans (Int.natCast_nonneg total) beyond)
    have beyond : total ≤ count := Int.ofNat_le.mp beyond
    apply String.toList_injective
    rw [toList_replace_of_neg value old new negative, toList_replace_natCast]
    by_cases empty : old.toList = []
    · rw [empty] at occurs ⊢
      rw [Text.occurs_nil_iff.mp occurs] at beyond
      rw [Text.cut, Text.cut, Text.join_cutAtBoundaries, Text.join_cutAtBoundaries,
        Text.atBoundaries_of_le beyond]
    · rw [Text.cut_of_le empty occurs beyond]
  · intro nonempty count within
    have nonempty : old.toList ≠ [] := fun empty => nonempty (String.toList_eq_nil_iff.mp empty)
    obtain ⟨pieces, rest, length, parted, cutting⟩ :=
      Text.exists_parted_cut nonempty occurs within
    refine ⟨pieces, rest, length, parted, parted.text, ?_⟩
    rw [toList_replace_natCast, cutting, Text.join_eq_intercalate]
  · rintro rfl count
    rw [toList_replace_natCast, show "".toList = [] from rfl, Text.cut, Text.join_cutAtBoundaries,
      Text.atBoundaries]
    simp only [Option.all_some, decide_eq_true_eq]
  · apply String.toList_injective
    rw [show (0 : Int) = ((0 : Nat) : Int) from rfl, toList_replace_natCast, Text.cut_zero,
      Text.join]
  · intro count
    obtain ⟨cuts, replaced⟩ := toList_replace value old old count
    exact String.toList_injective (replaced.trans (Text.join_cut_self old.toList value.toList cuts))

/-- Occurrences do not overlap, and one that is put in is not replaced. -/
example : replace "aaaaa" "aa" "aab" (-1) = "aabaaba" := by rfl

end Newsreel.Transform
