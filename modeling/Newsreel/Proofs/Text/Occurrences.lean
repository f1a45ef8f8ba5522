import Newsreel.Proofs.Text.Segments

/-!
Texts cut at the occurrences of another one.

An occurrence is leftmost where none begins before it. A text is parted at the leftmost occurrence,
at the leftmost one behind that, and so on; there is one way to do so to the end. Cutting parts a
text in this way, at as many occurrences as it may, and joining the pieces puts something else in
the places of these occurrences. The empty text occurs at every boundary instead.
-/

namespace Newsreel.Text

variable {old cs front behind rest : List Char} {pieces : List (List Char)} {cuts : Option Nat}

/-! Occurrences. -/

/-- The leftmost occurrence of a text in another one, with what stands before and behind it. -/
structure First (old cs front behind : List Char) : Prop where
  there : cs = front ++ old ++ behind
  leftmost : ∀ place < front.length, ¬old <+: cs.drop place

theorem First.not_prefix {c : Char} (first : First old cs (c :: front) behind) : ¬old <+: cs :=
  first.leftmost 0 (Nat.succ_pos _)

theorem First.tail {c d : Char} (first : First old (d :: cs) (c :: front) behind) :
    d = c ∧ First old cs front behind := by
  obtain ⟨same, there⟩ := List.cons.inj first.there
  exact ⟨same, there, fun place before => first.leftmost (place + 1) (Nat.succ_lt_succ before)⟩

theorem First.cons (first : First old cs front behind) {c : Char} (absent : ¬old <+: c :: cs) :
    First old (c :: cs) (c :: front) behind := by
  refine ⟨congrArg (List.cons c) first.there, fun place before => ?_⟩
  cases place with
  | zero => exact absent
  | succ place => exact first.leftmost place (Nat.lt_of_succ_lt_succ before)

/-- Where a text occurs at all, one occurrence is the leftmost. -/
theorem exists_first (occurs : old <:+: cs) : ∃ front behind, First old cs front behind := by
  induction cs with
  | nil =>
    obtain rfl := List.infix_nil.mp occurs
    exact ⟨[], [], rfl, nofun⟩
  | cons c cs ih =>
    by_cases here : old <+: c :: cs
    · obtain ⟨behind, there⟩ := here
      exact ⟨[], behind, there.symm, nofun⟩
    · obtain ⟨front, behind, first⟩ := ih ((List.infix_cons_iff.mp occurs).resolve_left here)
      exact ⟨c :: front, behind, first.cons here⟩

theorem First.occurs (first : First old cs front behind) : old <:+: cs :=
  ⟨front, behind, first.there.symm⟩

/-- The leftmost occurrence is in one place. -/
theorem First.unique {others more : List Char} (first : First old cs front behind)
    (other : First old cs others more) : front = others ∧ behind = more := by
  have notBefore {front others behind more : List Char} (first : First old cs front behind)
      (other : First old cs others more) : others.length ≤ front.length := by
    by_contra before
    refine other.leftmost front.length (Nat.lt_of_not_le before) ⟨behind, ?_⟩
    rw [first.there, List.append_assoc, List.drop_left]
  have length := Nat.le_antisymm (notBefore other first) (notBefore first other)
  have same := first.there.symm.trans other.there
  rw [List.append_assoc, List.append_assoc] at same
  obtain ⟨fronts, ends⟩ := List.append_inj same length
  exact ⟨fronts, List.append_cancel_left ends⟩

/-- A text parted at occurrences of another one. Behind each piece stands the leftmost occurrence
that begins no earlier than the one before it ends; `rest` is what stands behind the last. -/
inductive Parted (old : List Char) : (cs : List Char) → (pieces : List (List Char)) →
    (rest : List Char) → Prop where
  | whole (cs : List Char) : Parted old cs [] cs
  | next {cs front behind rest : List Char} {pieces : List (List Char)}
      (first : First old cs front behind) (later : Parted old behind pieces rest) :
      Parted old cs (front :: pieces) rest

/-- The occurrences stand between the pieces. -/
theorem Parted.text (parted : Parted old cs pieces rest) :
    cs = old.intercalate (pieces ++ [rest]) := by
  induction parted with
  | whole cs => rw [List.nil_append, List.intercalate_singleton]
  | next first later ih =>
    rw [List.cons_append, List.intercalate_cons_of_ne_nil (List.concat_ne_nil _ _), ← ih,
      first.there]

/-- A text may be parted at the first of the occurrences only. -/
theorem Parted.take (parted : Parted old cs pieces rest) {count : Nat}
    (fewer : count ≤ pieces.length) : ∃ others, Parted old cs (pieces.take count) others := by
  induction parted generalizing count with
  | whole cs => exact ⟨cs, by rw [List.take_nil]; exact .whole cs⟩
  | next first later ih =>
    cases count with
    | zero => exact ⟨_, .whole _⟩
    | succ count =>
      obtain ⟨others, parted⟩ := ih (Nat.le_of_succ_le_succ fewer)
      exact ⟨others, .next first parted⟩

/-- A text can be parted until no occurrence is left. -/
theorem exists_parted (nonempty : old ≠ []) (cs : List Char) :
    ∃ pieces rest, Parted old cs pieces rest ∧ ¬old <:+: rest := by
  induction length : cs.length using Nat.strong_induction_on generalizing cs with
  | _ bound ih =>
    by_cases occurs : old <:+: cs
    · obtain ⟨front, behind, first⟩ := exists_first occurs
      have shorter : behind.length < bound := by
        have positive := List.length_pos_iff.mpr nonempty
        rw [← length, first.there, List.length_append, List.length_append]
        omega
      obtain ⟨pieces, rest, later, complete⟩ := ih _ shorter behind rfl
      exact ⟨front :: pieces, rest, .next first later, complete⟩
    · exact ⟨[], cs, .whole cs, occurs⟩

theorem Parted.unique {others : List (List Char)} {more : List Char}
    (parted : Parted old cs pieces rest) (complete : ¬old <:+: rest)
    (other : Parted old cs others more) (completeToo : ¬old <:+: more) : pieces = others := by
  induction parted generalizing others with
  | whole cs =>
    cases other with
    | whole => rfl
    | next first later => exact absurd first.occurs complete
  | next first later ih =>
    cases other with
    | whole => exact absurd first.occurs completeToo
    | next firstToo laterToo =>
      obtain ⟨rfl, rfl⟩ := first.unique firstToo
      rw [ih complete laterToo]

/-- How often a text occurs in another one, each occurrence being the leftmost behind the one before
it. The empty text occurs at the boundaries between characters and at both ends. -/
def Occurs (old cs : List Char) (total : Nat) : Prop :=
  if old = [] then total = cs.length + 1
  else ∃ pieces rest, Parted old cs pieces rest ∧ ¬old <:+: rest ∧ pieces.length = total

theorem occurs_nil_iff {total : Nat} : Occurs [] cs total ↔ total = cs.length + 1 := by
  rw [Occurs, if_pos rfl]

theorem occurs_iff (nonempty : old ≠ []) {total : Nat} : Occurs old cs total ↔
    ∃ pieces rest, Parted old cs pieces rest ∧ ¬old <:+: rest ∧ pieces.length = total := by
  rw [Occurs, if_neg nonempty]

theorem existsUnique_occurs (old cs : List Char) : ∃! total, Occurs old cs total := by
  by_cases empty : old = []
  · subst empty
    exact ⟨cs.length + 1, occurs_nil_iff.mpr rfl, fun total => occurs_nil_iff.mp⟩
  · obtain ⟨pieces, rest, parted, complete⟩ := exists_parted empty cs
    refine ⟨pieces.length, (occurs_iff empty).mpr ⟨pieces, rest, parted, complete, rfl⟩, ?_⟩
    intro total occurs
    obtain ⟨others, more, other, completeToo, rfl⟩ := (occurs_iff empty).mp occurs
    rw [parted.unique complete other completeToo]

/-! Cutting at them. -/

theorem startsWith_iff : startsWith old cs = true ↔ old <+: cs := by
  rw [startsWith, Option.isSome_iff_exists]
  exact exists_congr fun behind => after?_eq_some_iff.trans eq_comm

theorem spend_eq_map (cuts : Option Nat) : spend cuts = cuts.map (· - 1) := by
  cases cuts <;> rfl

/-- The characters of an occurrence are passed over. -/
theorem cutFrom_skip {skip : Nat} (inside : skip ≤ cs.length) (cuts : Option Nat)
    (piece : List Char) :
    cutFrom old skip cuts piece cs = cutFrom old 0 cuts piece (cs.drop skip) := by
  induction skip generalizing cs with
  | zero => rfl
  | succ skip ih =>
    cases cs with
    | nil => cases inside
    | cons c cs => rw [cutFrom, ih (Nat.le_of_succ_le_succ inside), List.drop_succ_cons]

theorem cutFrom_occurrence (nonempty : old ≠ []) (allowed : cuts ≠ some 0)
    (piece behind : List Char) :
    cutFrom old 0 cuts piece (old ++ behind) =
      piece.reverse :: cutFrom old 0 (spend cuts) [] behind := by
  obtain ⟨c, others, rfl⟩ := List.exists_cons_of_ne_nil nonempty
  have here : startsWith (c :: others) (c :: (others ++ behind)) = true :=
    startsWith_iff.mpr (List.prefix_append (c :: others) behind)
  have inside : others.length ≤ (others ++ behind).length := by simp
  rw [List.cons_append, cutFrom, if_pos ⟨allowed, here⟩, List.length_cons, Nat.add_sub_cancel,
    cutFrom_skip inside, List.drop_left]

/-- The piece up to the leftmost occurrence is cut off. -/
theorem cutFrom_first (nonempty : old ≠ []) (allowed : cuts ≠ some 0)
    (first : First old cs front behind) (piece : List Char) :
    cutFrom old 0 cuts piece cs =
      (piece.reverse ++ front) :: cutFrom old 0 (spend cuts) [] behind := by
  induction front generalizing cs piece with
  | nil =>
    rw [first.there, List.nil_append, cutFrom_occurrence nonempty allowed, List.append_nil]
  | cons c front ih =>
    cases cs with
    | nil => cases first.there
    | cons d cs =>
      have absent : ¬(cuts ≠ some 0 ∧ startsWith old (d :: cs) = true) :=
        fun both => first.not_prefix (startsWith_iff.mp both.2)
      obtain ⟨rfl, later⟩ := first.tail
      rw [cutFrom, if_neg absent, ih later, List.reverse_cons, List.append_assoc]
      rfl

/-- Without an occurrence, or with no cut to spend, the text stays whole. -/
theorem cutFrom_whole (done : cuts = some 0 ∨ ¬old <:+: cs) (piece : List Char) :
    cutFrom old 0 cuts piece cs = [piece.reverse ++ cs] := by
  induction cs generalizing piece with
  | nil => rw [cutFrom, List.append_nil]
  | cons c cs ih =>
    have stays : ¬(cuts ≠ some 0 ∧ startsWith old (c :: cs) = true) := by
      rintro ⟨allowed, here⟩
      exact (done.resolve_left allowed) (startsWith_iff.mp here).isInfix
    have doneBehind : cuts = some 0 ∨ ¬old <:+: cs :=
      done.imp_right fun absent inside => absent (List.infix_cons inside)
    rw [cutFrom, if_neg stays, ih doneBehind, List.reverse_cons, List.append_assoc]
    rfl

/-- Cutting goes along the pieces, as long as there are cuts to spend. -/
theorem Parted.cutFrom_eq (parted : Parted old cs pieces rest) (nonempty : old ≠ [])
    (enough : ∀ count, cuts = some count → pieces.length ≤ count) :
    cutFrom old 0 cuts [] cs =
      pieces ++ cutFrom old 0 (cuts.map (· - pieces.length)) [] rest := by
  induction parted generalizing cuts with
  | whole cs =>
    cases cuts <;> rfl
  | @next cs front behind rest pieces first later ih =>
    have allowed : cuts ≠ some 0 := fun none => absurd (enough 0 none) (Nat.not_succ_le_zero _)
    have enoughBehind : ∀ count, spend cuts = some count → pieces.length ≤ count := by
      intro count spent
      rw [spend_eq_map, Option.map_eq_some_iff] at spent
      obtain ⟨all, given, rfl⟩ := spent
      exact Nat.le_sub_of_add_le (enough all given)
    have spent : (spend cuts).map (· - pieces.length) =
        cuts.map (· - (front :: pieces).length) := by
      cases cuts with
      | none => rfl
      | some count => exact congrArg some ((Nat.sub_sub count 1 pieces.length).trans (by
          rw [List.length_cons, Nat.add_comm]))
    rw [cutFrom_first nonempty allowed first, ih enoughBehind, spent]
    rfl

/-- A text is cut at all occurrences, or at as many as there are cuts. -/
theorem Parted.cut_eq (parted : Parted old cs pieces rest) (nonempty : old ≠ [])
    (enough : ∀ count, cuts = some count → pieces.length ≤ count)
    (done : cuts = some pieces.length ∨ ¬old <:+: rest) :
    cut old cuts cs = pieces ++ [rest] := by
  have whole : cuts.map (· - pieces.length) = some 0 ∨ ¬old <:+: rest := by
    refine done.imp_left fun all => ?_
    rw [all, Option.map_some, Nat.sub_self]
  have cutting : cut old cuts cs = cutFrom old 0 cuts [] cs := by
    cases old with
    | nil => exact absurd rfl nonempty
    | cons c others => rfl
  rw [cutting, parted.cutFrom_eq nonempty enough, cutFrom_whole whole]
  rfl

/-- With cuts for some of the occurrences, the first ones are taken. -/
theorem exists_parted_cut (nonempty : old ≠ []) {total count : Nat} (occurs : Occurs old cs total)
    (within : count ≤ total) : ∃ pieces rest, pieces.length = count ∧ Parted old cs pieces rest ∧
      cut old (some count) cs = pieces ++ [rest] := by
  obtain ⟨all, last, parted, -, rfl⟩ := (occurs_iff nonempty).mp occurs
  obtain ⟨rest, parted⟩ := parted.take within
  have length := List.length_take_of_le within
  refine ⟨all.take count, rest, length, parted, parted.cut_eq nonempty ?_ (Or.inl ?_)⟩
  · rintro _ ⟨⟩
    exact length.le
  · rw [length]

/-- Cuts beyond the last occurrence are not missed. -/
theorem cut_of_le (nonempty : old ≠ []) {total count : Nat} (occurs : Occurs old cs total)
    (beyond : total ≤ count) : cut old (some count) cs = cut old none cs := by
  obtain ⟨pieces, rest, parted, complete, rfl⟩ := (occurs_iff nonempty).mp occurs
  have unlimited : ∀ count, none = some count → pieces.length ≤ count := nofun
  have limited : ∀ limit, some count = some limit → pieces.length ≤ limit := by
    rintro _ ⟨⟩
    exact beyond
  rw [parted.cut_eq nonempty limited (Or.inr complete),
    parted.cut_eq nonempty unlimited (Or.inr complete)]

theorem join_eq_intercalate (glue : List Char) (pieces : List (List Char)) :
    join glue pieces = glue.intercalate pieces := by
  induction pieces with
  | nil => rfl
  | cons piece pieces ih =>
    cases pieces with
    | nil => rw [List.intercalate_singleton, join]
    | cons next pieces =>
      rw [List.intercalate_cons_cons, ← ih, join]
      exact List.cons_ne_nil next pieces

/-! Cutting at boundaries. -/

/-- A text with another one at those of its boundaries whose places are within a limit. Before each
character lies a boundary, and one lies behind the last. -/
def atBoundaries (glue : List Char) (limit : Option Nat) (cs : List Char) : List Char :=
  (List.range (cs.length + 1)).flatMap fun place =>
    (if limit.all (place < ·) then glue else []) ++ cs[place]?.toList

theorem atBoundaries_cons (glue : List Char) (limit : Option Nat) (c : Char) (cs : List Char) :
    atBoundaries glue limit (c :: cs) =
      (if limit.all (0 < ·) then glue else []) ++ c :: atBoundaries glue (spend limit) cs := by
  have later (place : Nat) :
      limit.all (place + 1 < ·) = (limit.map (· - 1)).all (place < ·) := by
    cases limit with
    | none => rfl
    | some count => exact decide_eq_decide.mpr (by dsimp only; omega)
  rw [atBoundaries, List.length_cons, List.range_succ_eq_map, List.flatMap_cons, List.flatMap_map,
    atBoundaries, spend_eq_map]
  simp only [later, List.getElem?_cons_zero, List.getElem?_cons_succ, Option.toList_some,
    List.append_assoc, List.singleton_append]

theorem atBoundaries_none_allowed (glue cs : List Char) : atBoundaries glue (some 0) cs = cs := by
  induction cs with
  | nil => rfl
  | cons c cs ih => rw [atBoundaries_cons, show spend (some 0) = some 0 from rfl, ih]; rfl

theorem atBoundaries_nil (limit : Option Nat) (cs : List Char) : atBoundaries [] limit cs = cs := by
  induction cs generalizing limit with
  | nil => simp [atBoundaries]
  | cons c cs ih => rw [atBoundaries_cons, ih, ite_self, List.nil_append]

/-- A limit beyond all boundaries is none. -/
theorem atBoundaries_of_le {count : Nat} (beyond : cs.length + 1 ≤ count) (glue : List Char) :
    atBoundaries glue (some count) cs = atBoundaries glue none cs := by
  refine List.flatMap_congr fun place member => ?_
  have within : place < count := Nat.lt_of_lt_of_le (List.mem_range.mp member) beyond
  simp [within]

theorem cutAtBoundaries_ne_nil (cuts : Option Nat) (cs : List Char) :
    cutAtBoundaries cuts cs ≠ [] := by
  unfold cutAtBoundaries
  split
  · simp
  · simp
  · split <;> simp

/-- The text goes in front of the character, which is joined to what is made of the rest. -/
theorem join_cutAtBoundaries_cons (glue : List Char) (allowed : cuts ≠ some 0) (c : Char)
    (cs : List Char) : join glue (cutAtBoundaries cuts (c :: cs)) =
      glue ++ c :: join glue (cutAtBoundaries (spend cuts) cs) := by
  rw [cutAtBoundaries]
  · cases pieces : cutAtBoundaries (spend cuts) cs with
    | nil => exact absurd pieces (cutAtBoundaries_ne_nil _ _)
    | cons piece others =>
      cases others with
      | nil => rfl
      | cons next others => rfl
  · exact allowed

theorem all_pos_of_ne_zero (allowed : cuts ≠ some 0) : cuts.all (0 < ·) = true := by
  cases cuts with
  | none => rfl
  | some count => simpa [Nat.pos_iff_ne_zero] using allowed

/-- Joining what has been cut at boundaries fills those boundaries. -/
theorem join_cutAtBoundaries (glue : List Char) (cuts : Option Nat) (cs : List Char) :
    join glue (cutAtBoundaries cuts cs) = atBoundaries glue cuts cs := by
  induction cs generalizing cuts with
  | nil =>
    by_cases spent : cuts = some 0
    · rw [spent]
      rfl
    · rw [cutAtBoundaries]
      · simp [join, atBoundaries, all_pos_of_ne_zero spent]
      · exact spent
  | cons c cs ih =>
    by_cases spent : cuts = some 0
    · rw [spent, atBoundaries_none_allowed, cutAtBoundaries]
      rfl
    · rw [join_cutAtBoundaries_cons glue spent, ih, atBoundaries_cons,
        if_pos (all_pos_of_ne_zero spent)]

/-! All ways of cutting. -/

theorem cut_zero (old cs : List Char) : cut old (some 0) cs = [cs] := by
  cases old with
  | nil => rw [cut, cutAtBoundaries]
  | cons c others => exact cutFrom_whole (Or.inl rfl) []

/-- What has been cut out and is put in again gives the text. -/
theorem join_cut_self (old cs : List Char) (cuts : Option Nat) : join old (cut old cuts cs) = cs := by
  by_cases empty : old = []
  · subst empty
    exact (join_cutAtBoundaries [] cuts cs).trans (atBoundaries_nil cuts cs)
  · obtain ⟨total, occurs, -⟩ := existsUnique_occurs old cs
    have all := cut_of_le empty occurs (Nat.le_refl total)
    obtain ⟨count, within, same⟩ : ∃ count ≤ total, cut old cuts cs = cut old (some count) cs := by
      cases cuts with
      | none => exact ⟨total, Nat.le_refl _, all.symm⟩
      | some count =>
        rcases Nat.le_total total count with beyond | within
        · exact ⟨total, Nat.le_refl _, (cut_of_le empty occurs beyond).trans all.symm⟩
        · exact ⟨count, within, rfl⟩
    obtain ⟨pieces, rest, -, parted, cutting⟩ := exists_parted_cut empty occurs within
    rw [same, cutting, join_eq_intercalate, ← parted.text]

end Newsreel.Text
