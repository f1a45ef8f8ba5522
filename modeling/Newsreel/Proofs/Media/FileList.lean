import Mathlib.Data.List.Infix
import Mathlib.Logic.ExistsUnique
import Newsreel.Media.Arguments
import Newsreel.Proofs.Text.Segments

/-!
What a list of files says.

The encoder reads such a list line by line and takes the quotes away from the words of a line. Paths
are written between quotes just as they are. A path that has no quote and does not go beyond its
line is read back. Any other one is not, and where it holds what stands between the paths of two
lines, it is written like these two paths.
-/

namespace Newsreel.FileList

/-! ## Reading -/

/-- Characters that end a line for the encoder. -/
def isLineEnd (c : Char) : Bool := c = '\n' ∨ c = '\r' ∨ c = Char.ofNat 0

/-- A word at the beginning of a text. Between quotes all is meant as it stands; elsewhere a
backslash stands before what is meant so, and a blank ends the word. -/
def readWord : (quoted : Bool) → List Char → List Char
  | _, [] => []
  | true, c :: rest => if c = '\'' then readWord false rest else c :: readWord true rest
  | false, '\\' :: c :: rest => c :: readWord false rest
  | false, c :: rest =>
    if c = '\'' then readWord true rest
    else if c = ' ' ∨ c = '\t' then []
    else c :: readWord false rest

/-- What a line begins with that names a file. -/
def directive : List Char := ['f', 'i', 'l', 'e', ' ']

/-- What the name of a file begins with. -/
def scheme : List Char := ['f', 'i', 'l', 'e', ':']

/-- The file that a line names. -/
def readLine? (line : List Char) : Option (List Char) := do
  let argument ← Text.after? directive line
  Text.after? scheme (readWord false argument)

/-- The files that the lines of a text name, but for the empty ones. -/
def readLines? (cs : List Char) : Option (List (List Char)) :=
  ((cs.splitOnP isLineEnd).filter fun line => !line.isEmpty).mapM readLine?

/-- The files that a list names. -/
def read? (list : String) : Option (List String) :=
  (readLines? list.toList).map fun files => files.map String.ofList

theorem readWord_append {cs : List Char} (plain : '\'' ∉ cs) (rest : List Char) :
    readWord true (cs ++ rest) = cs ++ readWord true rest := by
  induction cs with
  | nil => rfl
  | cons c cs ih =>
    rw [List.mem_cons, not_or] at plain
    rw [List.cons_append, readWord, if_neg (Ne.symm plain.1), ih plain.2, List.cons_append]

theorem length_readWord_le (quoted : Bool) (cs : List Char) :
    (readWord quoted cs).length ≤ cs.length := by
  fun_induction readWord quoted cs <;> simp only [List.length_cons, List.length_nil] <;> omega

/-- Of a quote itself or the backslash before it nothing is left. -/
theorem length_readWord_lt (quoted : Bool) {cs : List Char} (quote : '\'' ∈ cs) :
    (readWord quoted cs).length < cs.length := by
  fun_induction readWord quoted cs with
  | case1 => cases quote
  | case2 rest => exact Nat.lt_succ_of_le (length_readWord_le false rest)
  | case3 c rest other ih | case7 c rest _ other _ ih =>
    exact Nat.succ_lt_succ (ih ((List.mem_cons.mp quote).resolve_left (Ne.symm other)))
  | case4 c rest => exact Nat.succ_lt_succ (Nat.lt_succ_of_le (length_readWord_le false rest))
  | case5 rest => exact Nat.lt_succ_of_le (length_readWord_le true rest)
  | case6 => exact Nat.zero_lt_succ _

theorem readLines?_line {line : List Char} {c : Char} (whole : ∀ c ∈ line, isLineEnd c = false)
    (nonempty : line ≠ []) (ends : isLineEnd c = true) (rest : List Char) :
    readLines? (line ++ c :: rest) = (do
      let file ← readLine? line
      let files ← readLines? rest
      return file :: files) := by
  rw [readLines?, List.splitOnP_append_cons_of_forall_mem whole c ends,
    List.filter_cons_of_pos (by simpa using nonempty), List.mapM_cons]
  rfl

/-! ## Writing -/

/-- What stands before a path. -/
def opening : List Char := directive ++ '\'' :: scheme

/-- What stands behind a path. -/
def closing : List Char := ['\'', '\n']

/-- What stands between two paths. -/
def separator : List Char := closing ++ opening

/-- The lines for some paths. -/
def text : List (List Char) → List Char
  | [] => []
  | path :: paths => opening ++ (path ++ (closing ++ text paths))

theorem toList_concatList (paths : List String) :
    (Encoder.concatList paths).toList = text (paths.map String.toList) := by
  rw [Encoder.concatList, String.toList_join]
  induction paths with
  | nil => rfl
  | cons path paths ih =>
    rw [List.map_cons, List.flatMap_cons, ih, List.map_cons, text]
    simp [Encoder.concatLine, opening, closing, directive, scheme]

/-! ## Read back -/

/-- A path that means itself between quotes. -/
def Quotable (path : List Char) : Prop := ∀ c ∈ path, c ≠ '\'' ∧ isLineEnd c = false

theorem readLine?_opening (cs : List Char) :
    readLine? (opening ++ cs) = some (readWord true cs) := by
  have word : readWord false ('\'' :: (scheme ++ cs)) = scheme ++ readWord true cs :=
    readWord_append (by decide) cs
  have behind : Text.after? directive (opening ++ cs) = some ('\'' :: (scheme ++ cs)) :=
    Text.after?_eq_some_iff.mpr (by rw [opening, List.append_assoc, List.cons_append])
  rw [readLine?, behind, Option.bind_eq_bind, Option.bind_some, word]
  exact Text.after?_eq_some_iff.mpr rfl

/-- A path is read back from between two quotes exactly if it has none itself. -/
theorem readWord_closed_iff {path : List Char} :
    readWord true (path ++ ['\'']) = path ↔ '\'' ∉ path := by
  constructor
  · intro same member
    obtain ⟨front, back, rfl, before⟩ := List.eq_append_cons_of_mem member
    rw [List.append_assoc, readWord_append before, List.append_cancel_left_eq] at same
    have shorter := length_readWord_lt false
      (List.mem_append_right back (List.mem_singleton_self '\''))
    have length : (readWord false (back ++ ['\''])).length = back.length + 1 :=
      congrArg List.length same
    rw [List.length_append, List.length_singleton, length] at shorter
    exact Nat.lt_irrefl _ shorter
  · intro absent
    rw [readWord_append absent]
    exact List.append_nil path

/-- The first line of a list gives its path back only if the path means itself between quotes. -/
theorem readLines?_text_cons (path : List Char) (paths : List (List Char)) :
    ∃ first rest, readLines? (text (path :: paths)) =
        (do let files ← readLines? rest; return first :: files) ∧
      (first = path → Quotable path) ∧ (Quotable path → first = path ∧ rest = text paths) := by
  have plain : ∀ c ∈ opening, isLineEnd c = false := by
    simp [opening, directive, scheme, isLineEnd]
  have nonempty (cs : List Char) : opening ++ cs ≠ [] := by simp [opening]
  cases found : path.find? isLineEnd with
  | none =>
    -- The path stays on its line, so only a quote can be in the way.
    have whole : ∀ c ∈ path, isLineEnd c = false := by simpa using found
    have line : text (path :: paths) = opening ++ (path ++ ['\'']) ++ '\n' :: text paths := by
      simp [text, closing]
    refine ⟨readWord true (path ++ ['\'']), text paths, ?_, ?_, ?_⟩
    · rw [line, readLines?_line ?_ (nonempty _) (by decide), readLine?_opening]
      · rfl
      · simp only [List.mem_append, List.mem_singleton]
        rintro c (before | inside | rfl)
        · exact plain c before
        · exact whole c inside
        · decide
    · intro same c member
      refine ⟨?_, whole c member⟩
      rintro rfl
      exact readWord_closed_iff.mp same member
    · intro quotable
      exact ⟨readWord_closed_iff.mpr fun member => (quotable _ member).1 rfl, rfl⟩
  | some c =>
    -- The first line holds less than the path, and reading adds nothing.
    obtain ⟨ends, front, back, rfl, before⟩ := List.find?_eq_some_iff_append.mp found
    have line : text ((front ++ c :: back) :: paths) =
        opening ++ front ++ c :: (back ++ (closing ++ text paths)) := by
      simp [text]
    refine ⟨readWord true front, back ++ (closing ++ text paths), ?_, ?_, ?_⟩
    · rw [line, readLines?_line ?_ (nonempty _) ends, readLine?_opening]
      · rfl
      · simp only [List.mem_append]
        rintro c (early | inside)
        · exact plain c early
        · simpa using before c inside
    · intro same
      have shorter := length_readWord_le true front
      rw [same, List.length_append, List.length_cons] at shorter
      omega
    · intro quotable
      have proper := (quotable c (by simp)).2
      rw [ends] at proper
      cases proper

/-- A list is read back exactly if all its paths mean themselves between quotes. -/
theorem readLines?_text_iff {paths : List (List Char)} :
    readLines? (text paths) = some paths ↔ ∀ path ∈ paths, Quotable path := by
  induction paths with
  | nil => exact iff_of_true rfl nofun
  | cons path paths ih =>
    obtain ⟨first, rest, read, only, fully⟩ := readLines?_text_cons path paths
    rw [List.forall_mem_cons, ← ih, read, Option.bind_eq_bind, Option.bind_eq_some_iff]
    constructor
    · rintro ⟨files, behind, same⟩
      cases same
      have quotable := only rfl
      rw [(fully quotable).2] at behind
      exact ⟨quotable, behind⟩
    · rintro ⟨quotable, behind⟩
      obtain ⟨rfl, rfl⟩ := fully quotable
      exact ⟨paths, behind, rfl⟩

/-! ## Told apart -/

/-- A path that does not hold what stands between two paths. -/
def Single (path : List Char) : Prop := ¬separator <:+: path

/-- What stands between two paths does not overlap with itself. -/
theorem not_closing_in_separator : ∀ back ∈ separator.tails,
    back = separator ∨ back = [] ∨ ¬back.take 2 <+: closing := by
  decide

/-- What is behind a path ends it. -/
theorem eq_nil_of_text {more : List Char} {paths others : List (List Char)} (single : Single more)
    (same : closing ++ text paths = more ++ (closing ++ text others)) : more = [] := by
  cases paths with
  | nil =>
    have length := congrArg List.length same
    simp only [text, List.length_append, List.length_nil] at length
    exact List.length_eq_zero_iff.mp (by omega)
  | cons path paths =>
    have same : separator ++ (path ++ (closing ++ text paths)) =
        more ++ (closing ++ text others) := by
      rw [← same, separator, text, List.append_assoc]
    -- Either the separator lies in `more`, or its end is the beginning of another one.
    rcases List.append_eq_append_iff.mp same with ⟨rest, rfl, -⟩ | ⟨back, split, behind⟩
    · exact absurd (List.prefix_append separator rest).isInfix single
    · have suffix : back ∈ separator.tails := (List.mem_tails _ _).mpr ⟨more, split.symm⟩
      rcases not_closing_in_separator back suffix with rfl | rfl | apart
      · exact List.append_left_eq_self.mp split.symm
      · rw [List.append_nil] at split
        exact absurd (split ▸ List.infix_rfl) single
      · have start : back.take 2 <+: closing ++ text others :=
          (List.take_prefix 2 back).trans ⟨_, behind.symm⟩
        exact absurd (List.prefix_of_prefix_length_le start (List.prefix_append _ _)
          (List.length_take_le 2 back)) apart

theorem eq_of_text {path other : List Char} {paths others : List (List Char)}
    (single : Single path) (singleToo : Single other)
    (same : path ++ (closing ++ text paths) = other ++ (closing ++ text others)) :
    path = other ∧ text paths = text others := by
  have all : path = other := by
    rcases List.append_eq_append_iff.mp same with ⟨more, rfl, behind⟩ | ⟨more, rfl, behind⟩
    · have within : Single more := fun inside =>
        singleToo (inside.trans (List.suffix_append path more).isInfix)
      rw [eq_nil_of_text within behind, List.append_nil]
    · have within : Single more := fun inside =>
        single (inside.trans (List.suffix_append other more).isInfix)
      rw [eq_nil_of_text within behind, List.append_nil]
  rw [all, List.append_cancel_left_eq, List.append_cancel_left_eq] at same
  exact ⟨all, same⟩

/-- Lists of such paths are told apart. -/
theorem text_injective {paths others : List (List Char)} (single : ∀ path ∈ paths, Single path)
    (singleToo : ∀ other ∈ others, Single other) (same : text paths = text others) :
    paths = others := by
  induction paths generalizing others with
  | nil =>
    cases others with
    | nil => rfl
    | cons other others => cases same
  | cons path paths ih =>
    cases others with
    | nil => cases same
    | cons other others =>
      rw [List.forall_mem_cons] at single singleToo
      rw [text, text, List.append_cancel_left_eq] at same
      obtain ⟨rfl, behind⟩ := eq_of_text single.1 singleToo.1 same
      rw [ih single.2 singleToo.2 behind]

/-- A path that is not such a one is written like several that are. -/
theorem exists_single (path : List Char) : ∃ first rest,
    (∀ piece ∈ first :: rest, Single piece) ∧ ∀ paths,
      path ++ (closing ++ text paths) = first ++ (closing ++ text (rest ++ paths)) := by
  induction count : path.length using Nat.strong_induction_on generalizing path with
  | _ count ih =>
    subst count
    by_cases single : Single path
    · exact ⟨path, [], by simpa using single, fun paths => rfl⟩
    · obtain ⟨front, back, rfl⟩ := not_not.mp single
      have between : 0 < separator.length := by decide
      have short : front.length < (front ++ separator ++ back).length := by
        simp only [List.length_append]
        omega
      have shortToo : back.length < (front ++ separator ++ back).length := by
        simp only [List.length_append]
        omega
      obtain ⟨first, rest, singles, written⟩ := ih _ short front rfl
      obtain ⟨next, behind, others, writtenToo⟩ := ih _ shortToo back rfl
      refine ⟨first, rest ++ next :: behind, ?_, fun paths => ?_⟩
      · intro piece member
        rw [← List.cons_append, List.mem_append] at member
        exact member.elim (singles piece) (others piece)
      · calc front ++ separator ++ back ++ (closing ++ text paths)
            = front ++ (closing ++ (opening ++ (back ++ (closing ++ text paths)))) := by
              simp [separator]
          _ = front ++ (closing ++ text (next :: (behind ++ paths))) := by
              rw [writtenToo, text]
          _ = first ++ (closing ++ text (rest ++ next :: behind ++ paths)) := by
              rw [written, List.append_assoc, List.cons_append]

/-- Every list is written like one of such paths. -/
theorem exists_singles (paths : List (List Char)) :
    ∃ pieces, (∀ piece ∈ pieces, Single piece) ∧ text pieces = text paths := by
  induction paths with
  | nil => exact ⟨[], nofun, rfl⟩
  | cons path paths ih =>
    obtain ⟨pieces, singles, same⟩ := ih
    obtain ⟨first, rest, singlesToo, written⟩ := exists_single path
    refine ⟨first :: (rest ++ pieces), ?_, ?_⟩
    · intro piece member
      rw [← List.cons_append, List.mem_append] at member
      exact member.elim (singlesToo piece) (singles piece)
    · rw [text, text, ← written, same]

theorem map_ofList_eq_iff {lines : List (List Char)} {paths : List String} :
    lines.map String.ofList = paths ↔ lines = paths.map String.toList := by
  constructor
  · rintro rfl
    simp
  · rintro rfl
    simp

/-- What a list of files says of its paths: they are read back exactly if each of them means itself
between quotes. Whatever they are, the list is that of just one choice of paths that do not hold
what stands between two paths. -/
theorem concatList_read (paths : List String) :
    (read? (Encoder.concatList paths) = some paths ↔ ∀ path ∈ paths, Quotable path.toList) ∧
      ∃! pieces : List String, (∀ piece ∈ pieces, Single piece.toList) ∧
        Encoder.concatList pieces = Encoder.concatList paths := by
  have same {one other : List String} : Encoder.concatList one = Encoder.concatList other ↔
      text (one.map String.toList) = text (other.map String.toList) := by
    rw [← String.toList_inj, toList_concatList, toList_concatList]
  constructor
  · rw [read?, toList_concatList, Option.map_eq_some_iff]
    simp only [map_ofList_eq_iff, exists_eq_right, readLines?_text_iff, List.forall_mem_map]
  · obtain ⟨lines, singles, written⟩ := exists_singles (paths.map String.toList)
    obtain ⟨pieces, rfl⟩ : ∃ pieces : List String, lines = pieces.map String.toList :=
      ⟨lines.map String.ofList, map_ofList_eq_iff.mp rfl⟩
    refine ⟨pieces, ⟨List.forall_mem_map.mp singles, same.mpr written⟩, ?_⟩
    rintro others ⟨singlesToo, writtenToo⟩
    have equal := text_injective (List.forall_mem_map.mpr singlesToo) singles
      ((same.mp writtenToo).trans written.symm)
    calc others = (others.map String.toList).map String.ofList := (map_ofList_eq_iff.mpr rfl).symm
      _ = pieces := map_ofList_eq_iff.mpr equal

/-- Two different lists are written alike, and a quote in a path is lost. -/
theorem lists_confused :
    Encoder.concatList ["sun.mp3'\nfile 'file:rain.mp3"] =
        Encoder.concatList ["sun.mp3", "rain.mp3"] ∧
      ["sun.mp3'\nfile 'file:rain.mp3"] ≠ ["sun.mp3", "rain.mp3"] ∧
      Encoder.concatList ["it's.mp3"] = "file 'file:it's.mp3'\n" ∧
      read? (Encoder.concatList ["it's.mp3"]) = some ["its.mp3"] := by
  refine ⟨by decide +kernel, by decide, by decide +kernel, by decide +kernel⟩

end Newsreel.FileList
