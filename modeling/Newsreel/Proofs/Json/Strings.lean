import Newsreel.Json.Printer
import Newsreel.Json.Reader

/-!
Strings of JSON are read back.

Whatever characters a string has, it is read back from its quoted text, and the reader goes on behind
the closing quote. So a quoted text ends where it ends, whatever is written behind it.
-/

namespace Newsreel.Json

variable {here : Cursor} {rest : List Char}

theorem Cursor.rest_advance {c : Char} (next : here.rest = c :: rest) : here.advance.rest = rest := by
  unfold Cursor.advance
  split
  · next ended =>
    rw [next] at ended
    cases ended
  · next behind newline =>
    rw [next] at newline
    exact (List.cons.inj newline).2.symm
  · next d behind _ other =>
    rw [next] at other
    exact (List.cons.inj other).2.symm

/-- The hexadecimal digits of a control character. -/
theorem hexadecimal_control {n : Nat} (control : n < 32) :
    List.replicate (4 - (Text.hexadecimal n).length) '0' ++ (Text.hexadecimal n).toList =
      ['0', '0', Nat.digitChar (n / 16), Nat.digitChar (n % 16)] := by
  revert n
  decide

theorem hexDigit?_digitChar {n : Nat} (digit : n < 16) : Text.hexDigit? n.digitChar = some n := by
  revert n
  decide

theorem Cursor.rest_skipBytesFrom_zero (line column : Nat) (cs : List Char) :
    (skipBytesFrom line column 0 cs).rest = cs := by
  cases cs <;> simp [skipBytesFrom]

/-- Bytes that are characters of one byte. -/
theorem Cursor.rest_skipBytesFrom {front : List Char} (narrow : ∀ c ∈ front, c.utf8Size = 1)
    (line column : Nat) : (skipBytesFrom line column front.length (front ++ rest)).rest = rest := by
  induction front generalizing line column with
  | nil => exact rest_skipBytesFrom_zero line column rest
  | cons c front ih =>
    have size : c.utf8Size = 1 := narrow c List.mem_cons_self
    have others := fun line column => ih (fun d member => narrow d (List.mem_cons_of_mem c member))
      line column
    rw [List.length_cons, List.cons_append, skipBytesFrom, if_neg (by omega)]
    split
    · exact others _ _
    · rw [if_pos (by omega), size]
      exact others _ _

theorem utf8Size_digitChar {n : Nat} (digit : n < 16) : n.digitChar.utf8Size = 1 := by
  revert n
  decide

/-- A control character is read back from its four hexadecimal digits. -/
theorem readCodeUnit_control {n : Nat} (control : n < 32)
    (next : here.rest = ['0', '0', Nat.digitChar (n / 16), Nat.digitChar (n % 16)] ++ rest) :
    ∃ behind, behind.rest = rest ∧ readCodeUnit here = .ok (Char.ofNat n, behind) := by
  have high := hexDigit?_digitChar (n := n / 16) (by omega)
  have low := hexDigit?_digitChar (n := n % 16) (by omega)
  have hex : readHex here = .ok (n, here.skipBytes 4) := by
    have value : ((0 * 16 + 0) * 16 + n / 16) * 16 + n % 16 = n := by omega
    simp only [readHex, next, List.cons_append, high, low, show Text.hexDigit? '0' = some 0 from rfl,
      value]
  have narrow : ∀ c ∈ ['0', '0', Nat.digitChar (n / 16), Nat.digitChar (n % 16)],
      c.utf8Size = 1 := by
    intro c member
    simp only [List.mem_cons, List.not_mem_nil, or_false] at member
    rcases member with rfl | rfl | rfl | rfl
    · decide
    · decide
    · exact utf8Size_digitChar (by omega)
    · exact utf8Size_digitChar (by omega)
  refine ⟨here.skipBytes 4, ?_, ?_⟩
  · rw [Cursor.skipBytes, next]
    exact Cursor.rest_skipBytesFrom narrow here.line here.column
  · rw [readCodeUnit, hex]
    change (if _ then _ else _) = _
    rw [if_neg (by omega), if_pos (by omega)]

/-- An escape stands for one character. -/
theorem readChars_escape {c : Char} {escape : List Char} (fuel : Nat) (read : List Char)
    (next : here.rest = '\\' :: (escape ++ rest))
    (stands : ∀ there : Cursor, there.rest = escape ++ rest →
      ∃ behind : Cursor, behind.rest = rest ∧ readEscape there = .ok (c, behind)) :
    ∃ behind, behind.rest = rest ∧
      readChars (fuel + 1) read here = readChars fuel (c :: read) behind := by
  obtain ⟨behind, left, escaped⟩ := stands here.advance (Cursor.rest_advance next)
  refine ⟨behind, left, ?_⟩
  rw [readChars, next]
  change (readEscape here.advance >>= fun found => readChars fuel (found.1 :: read) found.2) = _
  rw [escaped]
  rfl

/-- A character is read back from what stands for it in a string. -/
theorem readChars_escapeChar {c : Char} (fuel : Nat) (read : List Char)
    (next : here.rest = (escapeChar c).toList ++ rest) :
    ∃ behind, behind.rest = rest ∧
      readChars (fuel + 1) read here = readChars fuel (c :: read) behind := by
  have short {e d : Char} (stands : ∀ there : Cursor, there.rest = e :: rest →
      readEscape there = .ok (d, there.advance)) (next : here.rest = '\\' :: ([e] ++ rest)) :=
    readChars_escape fuel read next fun there start =>
      ⟨there.advance, Cursor.rest_advance start, stands there start⟩
  unfold escapeChar at next
  split at next
  · exact short (e := '"') (fun there start => by simp [readEscape, start]) next
  · exact short (e := '\\') (fun there start => by simp [readEscape, start]) next
  · exact short (e := 'b') (fun there start => by simp [readEscape, start]) next
  · exact short (e := 'f') (fun there start => by simp [readEscape, start]) next
  · exact short (e := 'n') (fun there start => by simp [readEscape, start]) next
  · exact short (e := 'r') (fun there start => by simp [readEscape, start]) next
  · exact short (e := 't') (fun there start => by simp [readEscape, start]) next
  · next quote backslash _ _ _ _ _ =>
    split at next
    · next control =>
      simp only [String.toList_append, String.toList_ofList] at next
      rw [List.append_assoc "\\u".toList, hexadecimal_control control] at next
      have escape : here.rest = '\\' :: ('u' :: ['0', '0', Nat.digitChar (c.toNat / 16),
          Nat.digitChar (c.toNat % 16)] ++ rest) := next
      refine readChars_escape fuel read escape fun there start => ?_
      obtain ⟨behind, left, unit⟩ := readCodeUnit_control control (Cursor.rest_advance start)
      refine ⟨behind, left, ?_⟩
      rw [Char.ofNat_toNat] at unit
      simp [readEscape, start, unit]
    · next plain =>
      rw [String.toList_singleton] at next
      refine ⟨here.advance, Cursor.rest_advance next, ?_⟩
      simp [readChars, next, plain]

/-- The characters of a string between its quotes. -/
def escaped (cs : List Char) : List Char := cs.flatMap fun c => (escapeChar c).toList

theorem toList_quoted (s : String) : (quoted s).toList = '"' :: (escaped s.toList ++ ['"']) := by
  rw [quoted, String.toList_append, String.toList_append, String.toList_join, List.flatMap_map]
  rfl

theorem toList_escapeChar_ne_nil (c : Char) : (escapeChar c).toList ≠ [] := by
  unfold escapeChar
  split
  case h_8 => split <;> simp
  all_goals simp

theorem length_le_escaped (cs : List Char) : cs.length ≤ (escaped cs).length := by
  induction cs with
  | nil => exact Nat.le_refl 0
  | cons c cs ih =>
    have some := List.length_pos_iff.mpr (toList_escapeChar_ne_nil c)
    rw [escaped] at ih
    rw [escaped, List.flatMap_cons, List.length_append, List.length_cons]
    omega

theorem readChars_escaped {cs : List Char} (fuel : Nat) (read : List Char)
    (next : here.rest = escaped cs ++ '"' :: rest) :
    ∃ behind, behind.rest = rest ∧ readChars (cs.length + fuel + 1) read here =
      .ok (String.ofList (read.reverse ++ cs), behind) := by
  induction cs generalizing here read with
  | nil =>
    refine ⟨here.advance, Cursor.rest_advance next, ?_⟩
    simp [readChars, next, escaped]
  | cons c cs ih =>
    rw [escaped, List.flatMap_cons, List.append_assoc] at next
    obtain ⟨there, left, first⟩ := readChars_escapeChar (cs.length + fuel + 1) read next
    obtain ⟨behind, more, others⟩ := ih (c :: read) left
    refine ⟨behind, more, ?_⟩
    rw [List.length_cons, Nat.add_right_comm _ 1, first, others]
    simp

/-- A string is read back from its quoted text, and the reader goes on behind it. -/
theorem readString_quoted (s : String) (next : here.rest = (quoted s).toList ++ rest) :
    ∃ behind, behind.rest = rest ∧ readString here.advance = .ok (s, behind) := by
  rw [toList_quoted, List.cons_append, List.append_assoc] at next
  have start := Cursor.rest_advance next
  have enough : s.toList.length + (here.advance.rest.length - s.toList.length) + 1 =
      here.advance.rest.length + 1 := by
    have := length_le_escaped s.toList
    rw [start, List.length_append]
    omega
  obtain ⟨behind, left, chars⟩ := readChars_escaped (here.advance.rest.length - s.toList.length) [] start
  rw [enough] at chars
  exact ⟨behind, left, by rw [readString, chars]; simp⟩

/-- A quoted text ends where it ends, whatever is written behind it. -/
theorem quoted_append_inj {s t : String} {front back : List Char}
    (same : (quoted s).toList ++ front = (quoted t).toList ++ back) : s = t ∧ front = back := by
  let start (s : String) (rest : List Char) : Cursor := ⟨(quoted s).toList ++ rest, 0, 0⟩
  have starts : start s front = start t back := congrArg (Cursor.mk · 0 0) same
  obtain ⟨here, left, one⟩ := readString_quoted s (rfl : (start s front).rest = _)
  obtain ⟨there, right, two⟩ := readString_quoted t (rfl : (start t back).rest = _)
  rw [starts, two] at one
  cases one
  exact ⟨rfl, left.symm.trans right⟩

end Newsreel.Json
