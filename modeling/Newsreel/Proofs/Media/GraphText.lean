import Newsreel.Media.Assemble
import Newsreel.Proofs.Text.Segments

/-!
The text of a filter graph, read as the encoder reads it.

Semicolons stand between the chains and commas between the filters of a chain; labels in brackets
say what a chain takes and what it makes. Labels and filters in which none of these four characters
occurs are read back as they were written, and the labels of different streams differ.
-/

namespace Newsreel

/-! Texts without the characters that mean something in a graph. -/

/-- Neither a bracket nor a comma nor a semicolon. -/
def IsPlain (text : String) : Prop := ∀ c ∈ text.toList, c ∉ ['[', ']', ',', ';']

instance (text : String) : Decidable (IsPlain text) := List.decidableBAll _ _

namespace IsPlain

variable {text other : String}

theorem append (plain : IsPlain text) (also : IsPlain other) : IsPlain (text ++ other) := by
  intro c member
  rw [String.toList_append, List.mem_append] at member
  rcases member with front | back
  · exact plain c front
  · exact also c back

theorem of_isDigit (digits : ∀ c ∈ text.toList, c.isDigit = true) : IsPlain text := by
  intro c member special
  have isDigit := digits c member
  simp only [List.mem_cons, List.not_mem_nil, or_false] at special
  rcases special with rfl | rfl | rfl | rfl <;> exact absurd isDigit (by decide)

theorem natural (n : Nat) : IsPlain (Text.natural n) :=
  of_isDigit fun _ => Text.isDigit_of_mem_natural

theorem ofList {cs : List Char} (plain : ∀ c ∈ cs, c ∉ ['[', ']', ',', ';']) :
    IsPlain (String.ofList cs) := by
  intro c member
  rw [String.toList_ofList] at member
  exact plain c member

theorem zeros (n : Nat) : IsPlain (Decimal.zeros n) := by
  refine ofList fun c member => ?_
  rw [List.eq_of_mem_replicate member]
  decide

theorem withPoint (plain : IsPlain text) (places : Nat) : IsPlain (Decimal.withPoint text places) := by
  have padded : IsPlain (String.ofList (List.replicate (places + 1 - text.length) '0') ++ text) :=
    (zeros _).append plain
  unfold Decimal.withPoint
  dsimp only
  split
  · exact plain
  · refine ofList fun c member => ?_
    rcases List.mem_append.mp member with whole | behind
    · exact padded c (List.mem_of_mem_take whole)
    · rcases List.mem_cons.mp behind with rfl | rest
      · decide
      · exact padded c (List.mem_of_mem_drop rest)

/-- Numbers as they stand in a command line. -/
theorem secondsText (x : Float) : IsPlain (Media.secondsText x) := by
  have sign (negative : Bool) : IsPlain (if negative then "-" else "") := by
    cases negative <;> decide
  have digits (text : String) (plain : IsPlain text) (exponent : Int) :
      IsPlain (Decimal.plainLayout.positionalText text exponent) := by
    unfold Decimal.Layout.positionalText
    split
    · exact (plain.append (zeros _)).append (by decide)
    · exact plain.withPoint _
  rw [Media.secondsText, Decimal.Layout.write]
  split
  · decide
  · exact (sign _).append (by decide)
  · dsimp only
    split
    · exact (sign _).append (digits "0" (by decide) 0)
    · exact (sign _).append (digits _ (natural _) _)

end IsPlain

/-! Labels. -/

namespace Stream

/-- The first character of a label tells the kind of the stream. -/
theorem label_injective : Function.Injective label := by
  have noDigit {c : Char} {n : Nat} {more : List Char} (same : (Text.natural n).toList = c :: more) :
      c.isDigit = true :=
    Text.isDigit_of_mem_natural (n := n) (by rw [same]; exact List.mem_cons_self)
  have layerText (n : Nat) : (label (.layer n)).toList = 'f' :: (Text.natural n).toList := by
    simp [label]
  have groundText (n : Nat) : (label (.background n)).toList = 'b' :: 'g' :: (Text.natural n).toList := by
    simp [label]
  have inputNe {n : Nat} {c : Char} {more : List Char} (letter : c.isDigit = false) :
      (label (.input n)).toList ≠ c :: more := by
    intro same
    rw [noDigit same] at letter
    cases letter
  intro s t same
  have chars : s.label.toList = t.label.toList := by rw [same]
  cases s with
  | input m =>
    cases t with
    | input n => rw [Text.natural_injective same]
    | layer n => exact absurd (chars.trans (layerText n)) (inputNe (by decide))
    | background n => exact absurd (chars.trans (groundText n)) (inputNe (by decide))
    | video => exact absurd chars (inputNe (by decide))
  | layer m =>
    rw [layerText] at chars
    cases t with
    | input n => exact absurd chars.symm (inputNe (by decide))
    | layer n =>
      rw [layerText, List.cons.injEq, String.toList_inj] at chars
      rw [Text.natural_injective chars.2]
    | background n => simp [groundText] at chars
    | video => simp [label] at chars
  | background m =>
    rw [groundText] at chars
    cases t with
    | input n => exact absurd chars.symm (inputNe (by decide))
    | layer n => simp [layerText] at chars
    | background n =>
      rw [groundText, List.cons.injEq, List.cons.injEq, String.toList_inj] at chars
      rw [Text.natural_injective chars.2.2]
    | video => simp [label] at chars
  | video =>
    cases t with
    | input n => exact absurd chars.symm (inputNe (by decide))
    | layer n => simp [label] at chars
    | background n => simp [label] at chars
    | video => rfl

theorem isPlain_label (stream : Stream) : IsPlain stream.label := by
  cases stream with
  | input n => exact .natural n
  | layer n => exact .append (by decide) (.natural n)
  | background n => exact .append (by decide) (.natural n)
  | video => decide

end Stream

/-! Chains as they are written. -/

/-- A chain of filters with the labels of its streams. -/
structure WrittenChain where
  inputs : List String
  filters : List String
  output : String
  deriving DecidableEq, Repr

/-- The labels in brackets at the front of a text, and what follows them. The label under way is held
backwards. -/
def readLabels : (label : Option (List Char)) → List Char → Option (List String × List Char)
  | none, '[' :: rest => readLabels (some []) rest
  | none, rest => some ([], rest)
  | some label, ']' :: rest => (readLabels none rest).map fun (labels, rest) =>
    (String.ofList label.reverse :: labels, rest)
  | some label, c :: rest => readLabels (some (c :: label)) rest
  | some _, [] => none

/-- A chain: labels, filters and one more label. -/
def readChain (text : List Char) : Option WrittenChain := do
  let (inputs, rest) ← readLabels none text
  let (filters, rest) ← Text.splitAtChar? '[' rest
  let (output, rest) ← Text.splitAtChar? ']' rest
  if rest.isEmpty then
    some ⟨inputs, (Text.splitChars ',' filters).map String.ofList, String.ofList output⟩
  else none

/-- The chains of a graph. -/
def readGraph (text : String) : Option (List WrittenChain) :=
  (Text.splitChars ';' text.toList).mapM readChain

theorem readLabels_inside {label : List Char} (plain : ']' ∉ label) (held rest : List Char) :
    readLabels (some held) (label ++ ']' :: rest) = (readLabels none rest).map
      fun (labels, rest) => (String.ofList (held.reverse ++ label) :: labels, rest) := by
  induction label generalizing held with
  | nil => simp [readLabels]
  | cons c label ih =>
    rw [List.mem_cons, not_or] at plain
    have next : readLabels (some held) (c :: (label ++ ']' :: rest)) =
        readLabels (some (c :: held)) (label ++ ']' :: rest) := by
      rw [readLabels]
      exact fun closing => plain.1 closing.symm
    rw [List.cons_append, next, ih plain.2]
    simp

namespace FilterChain

/-- The chain as it is written. -/
def written (chain : FilterChain) : WrittenChain :=
  ⟨chain.inputs.map Stream.label, chain.filters, chain.output.label⟩

/-- A chain whose filters can be read back. -/
structure Plain (chain : FilterChain) : Prop where
  filters : ∀ filter ∈ chain.filters, IsPlain filter
  some : ∃ first rest, chain.filters = first :: rest ∧ first ≠ ""

theorem readLabels_bracketed (streams : List Stream) {c : Char} (noBracket : c ≠ '[')
    (rest : List Char) :
    readLabels none ((String.join (streams.map bracketed)).toList ++ c :: rest) =
      some (streams.map Stream.label, c :: rest) := by
  induction streams with
  | nil =>
    change readLabels none (c :: rest) = _
    rw [readLabels]
    · rfl
    · exact fun _ opening => noBracket (by cases opening; rfl)
  | cons stream streams ih =>
    have text : (String.join ((stream :: streams).map bracketed)).toList ++ c :: rest =
        '[' :: (stream.label.toList ++
          ']' :: ((String.join (streams.map bracketed)).toList ++ c :: rest)) := by
      simp [bracketed]
    have closed : ']' ∉ stream.label.toList := fun member =>
      stream.isPlain_label _ member (by decide)
    rw [text, readLabels, readLabels_inside closed, ih]
    simp

theorem mem_intercalate {glue : String} {texts : List String} {c : Char}
    (member : c ∈ (glue.intercalate texts).toList) :
    c ∈ glue.toList ∨ ∃ text ∈ texts, c ∈ text.toList := by
  rw [String.toList_intercalate] at member
  induction texts with
  | nil => cases member
  | cons first rest ih =>
    cases rest with
    | nil =>
      rw [List.map_singleton, List.intercalate_singleton] at member
      exact Or.inr ⟨first, List.mem_cons_self, member⟩
    | cons second rest =>
      rw [List.map_cons, List.map_cons, List.intercalate_cons_cons, List.append_assoc,
        List.mem_append, List.mem_append] at member
      rcases member with here | between | later
      · exact Or.inr ⟨first, List.mem_cons_self, here⟩
      · exact Or.inl between
      · rcases ih later with between | ⟨text, inside, here⟩
        · exact Or.inl between
        · exact Or.inr ⟨text, List.mem_cons_of_mem _ inside, here⟩

/-- The filters with commas between them hold nothing else that means something. -/
theorem mem_filters {chain : FilterChain} (plain : chain.Plain) {c : Char}
    (member : c ∈ (String.intercalate "," chain.filters).toList) : c ∉ ['[', ']', ';'] := by
  rcases mem_intercalate member with comma | ⟨filter, inside, here⟩
  · rw [List.mem_singleton.mp comma]
    decide
  · intro special
    refine plain.filters filter inside c here ?_
    simp only [List.mem_cons, List.not_mem_nil, or_false] at special ⊢
    tauto

theorem no_semicolon {chain : FilterChain} (plain : chain.Plain) : ';' ∉ chain.text.toList := by
  have bracket (stream : Stream) : ';' ∉ (bracketed stream).toList := by
    have label := stream.isPlain_label ';'
    simp only [bracketed, String.toList_append, List.mem_append, not_or]
    exact ⟨⟨by decide, fun member => label member (by decide)⟩, by decide⟩
  simp only [text, String.toList_append, List.mem_append, not_or, String.toList_join]
  refine ⟨⟨?_, fun member => mem_filters plain member (by decide)⟩, bracket chain.output⟩
  intro member
  obtain ⟨label, written, inside⟩ := List.mem_flatMap.mp member
  obtain ⟨stream, -, rfl⟩ := List.mem_map.mp written
  exact bracket stream inside

theorem intercalate_opens (glue first : String) (rest : List String) :
    ∃ behind, (glue.intercalate (first :: rest)).toList = first.toList ++ behind := by
  rw [String.toList_intercalate]
  cases rest with
  | nil => exact ⟨[], by simp⟩
  | cons second rest =>
    rw [List.map_cons, List.map_cons, List.intercalate_cons_cons, List.append_assoc]
    exact ⟨_, rfl⟩

theorem readChain_text {chain : FilterChain} (plain : chain.Plain) :
    readChain chain.text.toList = some chain.written := by
  obtain ⟨first, others, filters, some⟩ := plain.some
  obtain ⟨c, more, chars⟩ := List.exists_cons_of_ne_nil (mt String.toList_eq_nil_iff.mp some)
  obtain ⟨tail, body⟩ : ∃ tail, (String.intercalate "," chain.filters).toList = c :: tail := by
    obtain ⟨behind, text⟩ := intercalate_opens "," first others
    exact ⟨more ++ behind, by rw [filters, text, chars, List.cons_append]⟩
  have opening : '[' ∉ (String.intercalate "," chain.filters).toList :=
    fun member => mem_filters plain member (by decide)
  have closing : ']' ∉ chain.output.label.toList :=
    fun member => chain.output.isPlain_label _ member (by decide)
  have text : chain.text.toList = (String.join (chain.inputs.map bracketed)).toList ++
      c :: (tail ++ '[' :: (chain.output.label.toList ++ [']'])) := by
    simp [FilterChain.text, bracketed, body]
  have noBracket : c ≠ '[' := by
    rintro rfl
    exact opening (by rw [body]; exact List.mem_cons_self)
  have commas : Text.splitChars ',' (String.intercalate "," chain.filters).toList =
      chain.filters.map String.toList := by
    rw [Text.splitChars_eq_splitOn, String.toList_intercalate]
    refine List.splitOn_intercalate ',' ?_ (by simp [filters])
    intro filter member comma
    obtain ⟨written, inside, rfl⟩ := List.mem_map.mp member
    exact plain.filters written inside _ comma (by decide)
  rw [readChain, text, readLabels_bracketed chain.inputs noBracket]
  have front : c :: (tail ++ '[' :: (chain.output.label.toList ++ [']'])) =
      (String.intercalate "," chain.filters).toList ++
        '[' :: (chain.output.label.toList ++ ']' :: []) := by
    rw [body, List.cons_append]
  simp only [Option.bind_eq_bind, Option.bind_some, front, Text.splitAtChar?_append opening,
    Text.splitAtChar?_append closing, commas]
  simp [written, Function.comp_def]

/-- A graph whose filters are plain is read back from its text. -/
theorem readGraph_graphText {chains : List FilterChain} (some : chains ≠ [])
    (plain : ∀ chain ∈ chains, chain.Plain) :
    readGraph (graphText chains) = Option.some (chains.map written) := by
  have parts : Text.splitChars ';' (graphText chains).toList =
      chains.map fun chain => chain.text.toList := by
    rw [Text.splitChars_eq_splitOn, graphText, String.toList_intercalate, List.map_map]
    refine List.splitOn_intercalate ';' ?_ (by simpa using some)
    intro text member semicolon
    obtain ⟨chain, inside, rfl⟩ := List.mem_map.mp member
    exact no_semicolon (plain chain inside) semicolon
  have each (rest : List FilterChain) (plain : ∀ chain ∈ rest, chain.Plain) :
      (rest.map fun chain => chain.text.toList).mapM readChain = Option.some (rest.map written) := by
    induction rest with
    | nil => rfl
    | cons chain rest ih =>
      rw [List.map_cons, List.mapM_cons, readChain_text (plain chain List.mem_cons_self),
        ih fun other member => plain other (List.mem_cons_of_mem _ member)]
      rfl
  rw [readGraph, parts, each chains plain]

end FilterChain

end Newsreel
