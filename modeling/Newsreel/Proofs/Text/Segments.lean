import Mathlib.Data.List.DropRight
import Newsreel.Context.Path
import Newsreel.Proofs.Text.Digits

/-!
Paths written down and read again.

A loop keeps the place of its items as a text, and the text is cut into segments and trimmed again
at every use. What survives this is said here: segments without points and without white space in
front are read back from their joined text, whatever is written behind them.
-/

namespace Newsreel

namespace Text

/-! Cutting and trimming. -/

theorem isBlank_of_isDigit {c : Char} (isDigit : c.isDigit = true) : isBlank c = false := by
  have bounds : 48 ≤ c.toNat ∧ c.toNat ≤ 57 := by
    simpa [Char.isDigit, Char.le_def, UInt32.le_iff_toNat_le] using isDigit
  simp only [isBlank, Bool.or_eq_false_iff, Bool.and_eq_false_iff, decide_eq_false_iff_not,
    beq_eq_false_iff_ne]
  omega

/-- A text has a rest behind a beginning exactly if it is made of the two. -/
theorem after?_eq_some_iff {start cs rest : List Char} :
    after? start cs = some rest ↔ cs = start ++ rest := by
  induction start generalizing cs with
  | nil => simp [after?]
  | cons c start ih =>
    cases cs with
    | nil => simp [after?]
    | cons other cs =>
      rw [after?, List.cons_append, List.cons.injEq, eq_comm (a := other)]
      by_cases same : c = other
      · simp [same, ih]
      · simp [same]

theorem splitChars_eq_splitOn (sep : Char) (cs : List Char) : splitChars sep cs = cs.splitOn sep := by
  induction cs with
  | nil => rw [List.splitOn_nil]; rfl
  | cons c rest ih =>
    rw [List.splitOn_cons_eq_if_modifyHead, splitChars, ih]
    by_cases same : c = sep
    · simp [same]
    · rw [if_neg same, if_neg (by simpa using same)]
      cases parts : List.splitOn sep rest with
      | nil => exact absurd parts (List.splitOn_ne_nil sep rest)
      | cons part parts => rfl

theorem not_mem_of_mem_splitChars {sep : Char} {cs part : List Char}
    (member : part ∈ splitChars sep cs) : sep ∉ part := by
  induction cs generalizing part with
  | nil =>
    rw [splitChars, List.mem_singleton] at member
    simp [member]
  | cons c rest ih =>
    rw [splitChars] at member
    split at member
    · rcases List.mem_cons.mp member with rfl | later
      · simp
      · exact ih later
    · next other =>
      cases parts : splitChars sep rest with
      | nil => exact absurd parts (splitChars_eq_splitOn sep rest ▸ List.splitOn_ne_nil sep rest)
      | cons first later =>
        rw [parts] at member
        rcases List.mem_cons.mp member with rfl | inLater
        · simp [Ne.symm other, ih (parts ▸ List.mem_cons_self)]
        · exact ih (parts ▸ List.mem_cons_of_mem first inLater)

theorem mem_of_mem_splitChars {sep c : Char} {cs part : List Char}
    (member : part ∈ splitChars sep cs) (inside : c ∈ part) : c ∈ cs := by
  induction cs generalizing part with
  | nil =>
    rw [splitChars, List.mem_singleton] at member
    rwa [member] at inside
  | cons d rest ih =>
    rw [splitChars] at member
    split at member
    · rcases List.mem_cons.mp member with rfl | later
      · cases inside
      · exact List.mem_cons_of_mem d (ih later inside)
    · split at member
      · rw [List.mem_singleton.mp member, List.mem_singleton] at inside
        exact inside ▸ List.mem_cons_self
      · next first later parts =>
        rcases List.mem_cons.mp member with rfl | inLater
        · rcases List.mem_cons.mp inside with rfl | inFirst
          · exact List.mem_cons_self
          · exact List.mem_cons_of_mem d (ih (parts ▸ List.mem_cons_self) inFirst)
        · exact List.mem_cons_of_mem d (ih (parts ▸ List.mem_cons_of_mem first inLater) inside)

/-- What a text does not begin with blanks keeps when it is trimmed: all but blanks at its end. -/
theorem trimChars_of_not_blank {c : Char} (visible : isBlank c = false) (rest : List Char) :
    trimChars (c :: rest) = (c :: rest).rdropWhile isBlank := by
  rw [trimChars, List.dropWhile_cons_of_neg (by simp [visible])]
  rfl

theorem not_blank_of_trimChars {cs rest : List Char} {c : Char}
    (trimmed : trimChars cs = c :: rest) : isBlank c = false := by
  have front : (c :: rest) <+: cs.dropWhile isBlank := by
    rw [← trimmed]
    exact List.rdropWhile_prefix isBlank _
  obtain ⟨more, parts⟩ := front
  have first := List.head?_dropWhile_not isBlank cs
  rw [← parts] at first
  simpa using first

/-- Trimming the end of a text goes no further than a character that is not blank. -/
theorem rdropWhile_append_cons {c : Char} (visible : isBlank c = false) (front back : List Char) :
    (front ++ c :: back).rdropWhile isBlank = front ++ c :: back.rdropWhile isBlank := by
  simp only [List.rdropWhile, List.reverse_append, List.reverse_cons, List.append_assoc]
  rw [List.dropWhile_append]
  split
  · next blank =>
    rw [List.isEmpty_iff.mp blank]
    simp [List.dropWhile_cons_of_neg, visible]
  · simp

/-- No white space at either end. -/
structure Trimmed (cs : List Char) : Prop where
  front : ∀ c, cs.head? = some c → isBlank c = false
  back : ∀ c, cs.getLast? = some c → isBlank c = false

theorem trimChars_of_trimmed {cs : List Char} (trimmed : Trimmed cs) : trimChars cs = cs := by
  cases cs with
  | nil => rfl
  | cons c rest =>
    rw [trimChars_of_not_blank (trimmed.front c rfl), List.rdropWhile_eq_self_iff]
    intro some
    simpa using trimmed.back _ (List.getLast?_eq_some_getLast some)

theorem trimmed_trimChars (cs : List Char) : Trimmed (trimChars cs) where
  front c first := by
    obtain ⟨rest, trimmed⟩ := List.head?_eq_some_iff.mp first
    exact not_blank_of_trimChars trimmed
  back c last := by
    have some : trimChars cs ≠ [] := by
      rintro none
      rw [none] at last
      cases last
    have ended := List.rdropWhile_last_not isBlank (cs.dropWhile isBlank) some
    rw [List.getLast?_eq_some_getLast some, Option.some.injEq] at last
    rw [← last]
    exact Bool.eq_false_iff.mpr ended

theorem trimmed_of_not_blank {cs : List Char} (visible : ∀ c ∈ cs, isBlank c = false) :
    Trimmed cs where
  front c first := visible c (List.mem_of_mem_head? first)
  back c last := visible c (List.mem_of_mem_getLast? last)

theorem trimChars_eq_nil_iff {cs : List Char} :
    trimChars cs = [] ↔ ∀ c ∈ cs, isBlank c = true := by
  constructor
  · intro trimmed
    have blank : ∀ c ∈ cs.dropWhile isBlank, isBlank c = true :=
      List.rdropWhile_eq_nil_iff.mp trimmed
    have first := List.head?_dropWhile_not isBlank cs
    cases left : cs.dropWhile isBlank with
    | nil => exact List.dropWhile_eq_nil_iff.mp left
    | cons c rest =>
      rw [left] at first blank
      simp [blank c List.mem_cons_self] at first
  · intro blank
    rw [trimChars, List.dropWhile_eq_nil_iff.mpr blank]
    rfl

theorem mem_of_mem_trimChars {cs : List Char} {c : Char} (member : c ∈ trimChars cs) : c ∈ cs :=
  (List.dropWhile_suffix isBlank).subset ((List.rdropWhile_prefix isBlank _).subset member)

theorem splitAtChar?_of_not_mem {sep : Char} {cs : List Char} (absent : sep ∉ cs) :
    splitAtChar? sep cs = none := by
  induction cs with
  | nil => rfl
  | cons c rest ih =>
    rw [List.mem_cons, not_or] at absent
    rw [splitAtChar?, if_neg (Ne.symm absent.1), ih absent.2]
    rfl

theorem splitAtChar?_append {sep : Char} {front : List Char} (absent : sep ∉ front)
    (back : List Char) : splitAtChar? sep (front ++ sep :: back) = some (front, back) := by
  induction front with
  | nil => rw [List.nil_append, splitAtChar?, if_pos rfl]
  | cons c rest ih =>
    rw [List.mem_cons, not_or] at absent
    rw [List.cons_append, splitAtChar?, if_neg (Ne.symm absent.1), ih absent.2]
    rfl

theorem eq_append_of_splitAtChar? {sep : Char} {cs front back : List Char}
    (split : splitAtChar? sep cs = some (front, back)) :
    cs = front ++ sep :: back ∧ sep ∉ front := by
  by_cases member : sep ∈ cs
  · obtain ⟨first, rest, rfl, absent⟩ := List.eq_append_cons_of_mem member
    rw [splitAtChar?_append absent] at split
    cases split
    exact ⟨rfl, absent⟩
  · rw [splitAtChar?_of_not_mem member] at split
    cases split

theorem not_mem_of_splitAtChar? {sep : Char} {cs : List Char} (whole : splitAtChar? sep cs = none) :
    sep ∉ cs := by
  intro member
  obtain ⟨front, back, rfl, absent⟩ := List.eq_append_cons_of_mem member
  rw [splitAtChar?_append absent] at whole
  cases whole

end Text

namespace Path

/-- The path below another one; nothing is below the empty suffix. -/
def below (path suffix : String) : String :=
  if suffix = "" then path else path ++ "." ++ suffix

/-- No segment is empty or holds a point. -/
def Plain (segments : List String) : Prop :=
  ∀ segment ∈ segments, segment ≠ "" ∧ '.' ∉ segment.toList

/-- Segments that are read back from their text: they are plain, and the first one does not begin
with white space. -/
structure Settled (segments : List String) : Prop where
  plain : Plain segments
  opens : ∃ c cs rest, segments = String.ofList (c :: cs) :: rest ∧ Text.isBlank c = false

/-- The last segment does not end with white space. -/
def Closed (segments : List String) : Prop :=
  ∃ front cs c, segments = front ++ [String.ofList (cs ++ [c])] ∧ Text.isBlank c = false

theorem Settled.ne_nil {segments : List String} (settled : Settled segments) : segments ≠ [] := by
  obtain ⟨c, cs, rest, rfl, -⟩ := settled.opens
  exact List.cons_ne_nil _ _

theorem Settled.plain_tail {head : String} {rest : List String} (settled : Settled (head :: rest)) :
    Plain rest := fun segment member => settled.plain segment (List.mem_cons_of_mem head member)

theorem Plain.append {front back : List String} (plain : Plain front) (plainBack : Plain back) :
    Plain (front ++ back) := by
  intro segment member
  rcases List.mem_append.mp member with inFront | inBack
  · exact plain segment inFront
  · exact plainBack segment inBack

theorem Settled.append {segments rest : List String} (settled : Settled segments)
    (plain : Plain rest) : Settled (segments ++ rest) := by
  obtain ⟨c, cs, tail, rfl, visible⟩ := settled.opens
  exact ⟨settled.plain.append plain, c, cs, tail ++ rest, rfl, visible⟩

/-- The segments of a suffix, unless one of them is empty. White space at its end does not count. -/
def suffix? (suffix : String) : Option (List String) :=
  if suffix = "" then some []
  else
    let segments :=
      (Text.splitChars '.' (suffix.toList.rdropWhile Text.isBlank)).map String.ofList
    if segments.any (· = "") then none else some segments

theorem join_append {front back : List String} (some : front ≠ []) (more : back ≠ []) :
    join (front ++ back) = join front ++ "." ++ join back :=
  String.intercalate_append_of_ne_nil some more

/-- The text of segments is cut where they were joined. -/
theorem splitChars_join {segments : List String} (settled : Settled segments) :
    (Text.splitChars '.' (join segments).toList).map String.ofList = segments := by
  rw [Text.splitChars_eq_splitOn, join, String.toList_intercalate]
  rw [show ".".toList = ['.'] from rfl, List.splitOn_intercalate]
  · simp [List.map_map, Function.comp_def]
  · intro cs member
    obtain ⟨segment, belongs, rfl⟩ := List.mem_map.mp member
    exact (settled.plain segment belongs).2
  · simpa using settled.ne_nil

theorem join_opens {segments : List String} (settled : Settled segments) :
    ∃ c cs, (join segments).toList = c :: cs ∧ Text.isBlank c = false := by
  obtain ⟨c, cs, rest, rfl, visible⟩ := settled.opens
  cases rest with
  | nil => exact ⟨c, cs, by simp [join], visible⟩
  | cons next more =>
    refine ⟨c, cs ++ ('.' :: (join (next :: more)).toList), ?_, visible⟩
    simp [join]

theorem join_closes {segments : List String} (closed : Closed segments) :
    ∃ cs c, (join segments).toList = cs ++ [c] ∧ Text.isBlank c = false := by
  obtain ⟨front, cs, c, rfl, visible⟩ := closed
  cases front with
  | nil => exact ⟨cs, c, by simp [join], visible⟩
  | cons first more =>
    refine ⟨(join (first :: more)).toList ++ '.' :: cs, c, ?_, visible⟩
    rw [join_append (List.cons_ne_nil _ _) (List.cons_ne_nil _ _)]
    simp [join]

/-- The text that is cut into segments is their joined text. -/
theorem split_below {segments : List String} (settled : Settled segments) (closed : Closed segments)
    (suffix : String) :
    split (below (join segments) suffix) = match suffix? suffix with
      | some rest => .ok (segments ++ rest)
      | none => .error (.invalidValue (below (join segments) suffix) .emptySegment) := by
  obtain ⟨c, cs, opening, visible⟩ := join_opens settled
  have noEmpty : segments.any (· = "") = false := by
    simp only [List.any_eq_false, decide_eq_true_eq]
    exact fun segment member => (settled.plain segment member).1
  by_cases nothing : suffix = ""
  · obtain ⟨front, last, closing, visibleLast⟩ := join_closes closed
    have trimmed : Text.trimChars (join segments).toList = (join segments).toList := by
      rw [opening, Text.trimChars_of_not_blank visible, ← opening, closing,
        List.rdropWhile_concat_neg _ _ _ (by simp [visibleLast])]
    simp [split, below, suffix?, nothing, trimmed, splitChars_join settled, noEmpty]
  · have trimmed : Text.trimChars (below (join segments) suffix).toList =
        (join segments).toList ++ '.' :: suffix.toList.rdropWhile Text.isBlank := by
      have text : (below (join segments) suffix).toList =
          (join segments).toList ++ '.' :: suffix.toList := by
        simp [below, nothing]
      rw [text, ← Text.rdropWhile_append_cons (c := '.') (by decide), opening, List.cons_append,
        Text.trimChars_of_not_blank visible]
    have parts : (Text.splitChars '.' (Text.trimChars (below (join segments) suffix).toList)).map
        String.ofList = segments ++
          (Text.splitChars '.' (suffix.toList.rdropWhile Text.isBlank)).map String.ofList := by
      rw [trimmed, Text.splitChars_eq_splitOn, List.splitOn_append_cons_self, List.map_append,
        ← Text.splitChars_eq_splitOn, ← Text.splitChars_eq_splitOn, splitChars_join settled]
    simp only [split, parts, List.any_append, noEmpty, Bool.false_or, suffix?, if_neg nothing]
    split <;> rfl

/-- Settled segments are read back from their text, unless white space ends the last one. -/
theorem split_join {segments : List String} (settled : Settled segments) (closed : Closed segments) :
    split (join segments) = .ok segments := by
  simpa [below, suffix?] using split_below settled closed ""

theorem plain_of_no_empty {cs : List Char}
    (noEmpty : ¬((Text.splitChars '.' cs).map String.ofList).any (· = "") = true) :
    Plain ((Text.splitChars '.' cs).map String.ofList) := by
  simp only [List.any_eq_true, decide_eq_true_eq, not_exists, not_and] at noEmpty
  intro segment member
  refine ⟨noEmpty segment member, ?_⟩
  obtain ⟨part, belongs, rfl⟩ := List.mem_map.mp member
  rw [String.toList_ofList]
  exact Text.not_mem_of_mem_splitChars belongs

theorem plain_of_suffix? {suffix : String} {segments : List String}
    (read : suffix? suffix = some segments) : Plain segments := by
  simp only [suffix?] at read
  split at read
  · cases read
    intro segment member
    cases member
  · split at read
    · cases read
    · next noEmpty =>
      cases read
      exact plain_of_no_empty noEmpty

/-- The segments of a path are settled. -/
theorem split_settled {path : String} {segments : List String}
    (success : split path = .ok segments) : Settled segments := by
  simp only [split] at success
  split at success
  · cases success
  · next noEmpty =>
    cases success
    have plain := plain_of_no_empty noEmpty
    refine ⟨plain, ?_⟩
    cases trimmed : Text.trimChars path.toList with
    | nil => exact absurd rfl (plain "" (by simp [trimmed, Text.splitChars])).1
    | cons c rest =>
      have visible := Text.not_blank_of_trimChars trimmed
      have notPoint : c ≠ '.' := by
        rintro rfl
        exact absurd rfl (plain "" (by simp [trimmed, Text.splitChars])).1
      rw [Text.splitChars, if_neg notPoint]
      cases Text.splitChars '.' rest with
      | nil => exact ⟨c, [], [], rfl, visible⟩
      | cons part parts => exact ⟨c, part, parts.map String.ofList, rfl, visible⟩

/-- The path of an item is the joined text of its place. -/
theorem join_item {segments : List String} (some : segments ≠ []) (index : Nat) :
    join (segments ++ [Text.natural index]) =
      join segments ++ "." ++ Text.natural index := by
  rw [join_append some (List.cons_ne_nil _ _)]
  simp [join]

theorem plain_natural (index : Nat) : Plain [Text.natural index] := by
  intro segment member
  rw [List.mem_singleton] at member
  subst member
  refine ⟨Text.natural_ne_empty index, fun point => ?_⟩
  have isDigit := Text.isDigit_of_mem_natural point
  revert isDigit
  decide

theorem closed_natural (segments : List String) (index : Nat) :
    Closed (segments ++ [Text.natural index]) := by
  have some : (Text.natural index).toList ≠ [] := fun none =>
    Text.natural_ne_empty index (String.toList_eq_nil_iff.mp none)
  refine ⟨segments, (Text.natural index).toList.dropLast, (Text.natural index).toList.getLast some,
    ?_, ?_⟩
  · rw [List.dropLast_append_getLast, String.ofList_toList]
  · exact Text.isBlank_of_isDigit (Text.isDigit_of_mem_natural (List.getLast_mem some))

end Path

end Newsreel
