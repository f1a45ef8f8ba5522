import Mathlib.Data.List.Chain
import Newsreel.Proofs.Context.Format
import Newsreel.Proofs.Text.Segments

/-!
Templates written down and read again.

A literal is written with each of its braces doubled, a placeholder between single braces. Whatever
braces meet at the borders, the scan takes the doubled ones of a literal in pairs before it comes to
the single one of a placeholder, so it finds the parts again. It finds no other parts than those
that can be written this way: they are called normal.
-/

namespace Newsreel

namespace Placeholder

/-- What stands between the braces of a placeholder. -/
def inner (p : Placeholder) : List Char :=
  p.path.toList ++ match p.precision with
    | none => []
    | some places => ':' :: '.' :: (Text.natural places).toList

/-- A placeholder that is read back from what stands between its braces. A machine word holds the
count of decimal places. -/
structure Normal (p : Placeholder) : Prop where
  named : p.path ≠ ""
  trimmed : Text.Trimmed p.path.toList
  noBrace : ∀ c ∈ p.path.toList, c ≠ '\x7b' ∧ c ≠ '\x7d'
  noColon : ':' ∉ p.path.toList
  counted : ∀ places, p.precision = some places → places < Text.countLimit

theorem readPrecision_written {places : Nat} (small : places < Text.countLimit) :
    readPrecision (String.ofList ('.' :: (Text.natural places).toList)) = .ok (some places) := by
  have noSuffix : ∀ front, (Text.natural places).toList.reverse = 'f' :: front → False := by
    intro front suffixed
    have last : 'f' ∈ (Text.natural places).toList := by
      rw [← List.mem_reverse, suffixed]
      exact List.mem_cons_self
    exact absurd (Text.isDigit_of_mem_natural last) (by decide)
  rw [readPrecision, String.toList_ofList]
  simp only [String.ofList_toList, Text.count?_natural small]

/-- A normal placeholder is read from what stands between its braces. -/
theorem read_inner {p : Placeholder} (normal : p.Normal) : read p.inner = .ok p := by
  have path : Text.trim (String.ofList p.path.toList) = p.path := by
    rw [Text.trim, String.toList_ofList, Text.trimChars_of_trimmed normal.trimmed,
      String.ofList_toList]
  obtain ⟨name, precision⟩ := p
  cases precision with
  | none =>
    have whole := Text.splitAtChar?_of_not_mem normal.noColon
    simp only [read, inner, List.append_nil, whole, path, if_neg normal.named]
    rfl
  | some places =>
    have visible : Text.Trimmed ('.' :: (Text.natural places).toList) := by
      refine Text.trimmed_of_not_blank fun c member => ?_
      rcases List.mem_cons.mp member with rfl | digit
      · decide
      · exact Text.isBlank_of_isDigit (Text.isDigit_of_mem_natural digit)
    have spec : Text.trim (String.ofList ('.' :: (Text.natural places).toList)) =
        String.ofList ('.' :: (Text.natural places).toList) := by
      rw [Text.trim, String.toList_ofList, Text.trimChars_of_trimmed visible]
    have cut := Text.splitAtChar?_append normal.noColon ('.' :: (Text.natural places).toList)
    simp only [read, inner, cut, path, spec, if_neg normal.named,
      readPrecision_written (normal.counted places rfl)]
    rfl

theorem inner_noBrace {p : Placeholder} (normal : p.Normal) :
    ∀ c ∈ p.inner, c ≠ '\x7b' ∧ c ≠ '\x7d' := by
  intro c member
  rcases List.mem_append.mp member with inPath | inSpec
  · exact normal.noBrace c inPath
  · split at inSpec
    · cases inSpec
    · next places _ =>
      rcases List.mem_cons.mp inSpec with rfl | behind
      · decide
      · rcases List.mem_cons.mp behind with rfl | digit
        · decide
        · have isDigit := Text.isDigit_of_mem_natural digit
          constructor
          · rintro rfl
            exact absurd isDigit (by decide)
          · rintro rfl
            exact absurd isDigit (by decide)

theorem counted_of_readPrecision {spec : String} {precision : Option Nat}
    (success : readPrecision spec = .ok precision) :
    ∀ places, precision = some places → places < Text.countLimit := by
  rintro places rfl
  unfold readPrecision at success
  split at success
  · cases success
  · dsimp only at success
    split at success
    · next count =>
      cases success
      have small := (Option.filter_eq_some_iff.mp count).2
      simpa using small
    · cases success
  · cases success

/-- What is read between braces is normal. -/
theorem normal_of_read {cs : List Char} {p : Placeholder}
    (noBrace : ∀ c ∈ cs, c ≠ '\x7b' ∧ c ≠ '\x7d') (success : read cs = .ok p) : p.Normal := by
  -- With or without a colon, the path is trimmed from characters that were read before it.
  have built : ∀ (path : List Char) (spec : String), (∀ c ∈ path, c ∈ cs) → ':' ∉ path →
      (if Text.trim (String.ofList path) = "" then .error .emptyPlaceholder
        else (readPrecision spec).map fun precision => ⟨Text.trim (String.ofList path), precision⟩) =
        Except.ok (ε := ValueFault) p → p.Normal := by
    intro path spec inside noColon success
    split at success
    · cases success
    · next named =>
      cases count : readPrecision spec with
      | error fault =>
        rw [count] at success
        cases success
      | ok precision =>
        rw [count] at success
        cases success
        have chars : (Text.trim (String.ofList path)).toList = Text.trimChars path := by
          rw [Text.trim, String.toList_ofList, String.toList_ofList]
        exact {
          named := named
          trimmed := chars ▸ Text.trimmed_trimChars path
          noBrace := fun c member =>
            noBrace c (inside c (Text.mem_of_mem_trimChars (chars ▸ member)))
          noColon := fun member => noColon (Text.mem_of_mem_trimChars (chars ▸ member))
          counted := counted_of_readPrecision count }
  unfold read at success
  cases cut : Text.splitAtChar? ':' cs with
  | none =>
    rw [cut] at success
    exact built cs "" (fun c member => member) (Text.not_mem_of_splitAtChar? cut) success
  | some halves =>
    obtain ⟨path, spec⟩ := halves
    rw [cut] at success
    obtain ⟨rfl, noColon⟩ := Text.eq_append_of_splitAtChar? cut
    exact built path (Text.trim (String.ofList spec))
      (fun c member => List.mem_append_left _ member) noColon success

end Placeholder

namespace Template

/-- Characters with each brace doubled. -/
def escapeChars (cs : List Char) : List Char :=
  cs.flatMap fun c => if isBrace c then [c, c] else [c]

/-- A text with each brace doubled. -/
def escape (text : String) : String := String.ofList (escapeChars text.toList)

def printPart : Part → List Char
  | .literal text => escapeChars text.toList
  | .placeholder p => '\x7b' :: (p.inner ++ ['\x7d'])

/-- The text of parts. -/
def print (parts : List Part) : String := String.ofList (parts.flatMap printPart)

/-- Not both are literals. -/
def Apart : Part → Part → Prop
  | .literal _, .literal _ => False
  | _, _ => True

/-- Parts that are found again in their text. -/
structure Normal (parts : List Part) : Prop where
  literals : ∀ text, .literal text ∈ parts → text ≠ ""
  apart : parts.IsChain Apart
  placeholders : ∀ p, .placeholder p ∈ parts → p.Normal

/-! From parts to their text and back. -/

/-- Doubled braces are read as the text they stand for, whatever follows. -/
theorem scan_escapeChars (read text rest : List Char) :
    scan read none (escapeChars text ++ rest) = scan (text.reverse ++ read) none rest := by
  induction text generalizing read with
  | nil => rfl
  | cons c text ih =>
    have pushed : (c :: text).reverse ++ read = text.reverse ++ c :: read := by simp
    rw [pushed, ← ih]
    by_cases opening : c = '\x7b'
    · subst opening
      exact scan.eq_2 read _
    · by_cases closing : c = '\x7d'
      · subst closing
        exact scan.eq_3 read _
      · have single : escapeChars (c :: text) = c :: escapeChars text := by
          simp [escapeChars, isBrace, opening, closing]
        rw [single, List.cons_append]
        exact scan_literal read opening fun _ isClosing => absurd isClosing closing

theorem scan_inner (read inner : List Char) {cs : List Char}
    (noBrace : ∀ c ∈ cs, c ≠ '\x7b' ∧ c ≠ '\x7d') (rest : List Char) :
    scan read (some inner) (cs ++ rest) = scan read (some (cs.reverse ++ inner)) rest := by
  induction cs generalizing inner with
  | nil => rfl
  | cons c cs ih =>
    have visible := noBrace c List.mem_cons_self
    rw [List.cons_append, scan_inside read inner _ visible.1 visible.2,
      ih _ fun d member => noBrace d (List.mem_cons_of_mem c member)]
    simp

theorem scan_placeholder (read : List Char) {p : Placeholder} (normal : p.Normal)
    (rest : List Char) : scan read none (printPart (.placeholder p) ++ rest) =
      (scan [] none rest).map fun parts => flush read (.placeholder p :: parts) := by
  have single : ∀ more, p.inner ++ ('\x7d' :: rest) = '\x7b' :: more → False := by
    intro more opening
    cases text : p.inner with
    | nil =>
      rw [text] at opening
      cases opening
    | cons c cs =>
      rw [text] at opening
      cases opening
      exact (Placeholder.inner_noBrace normal '\x7b' (text ▸ List.mem_cons_self)).1 rfl
  rw [printPart, List.cons_append, List.append_assoc, List.singleton_append, scan_begins read single,
    scan_inner read [] (Placeholder.inner_noBrace normal), scan, List.append_nil,
    List.reverse_reverse, Placeholder.read_inner normal]
  cases scan [] none rest <;> rfl

theorem Normal.tail {part : Part} {rest : List Part} (normal : Normal (part :: rest)) :
    Normal rest where
  literals text member := normal.literals text (List.mem_cons_of_mem part member)
  apart := normal.apart.tail
  placeholders p member := normal.placeholders p (List.mem_cons_of_mem part member)

theorem Normal.not_literal {text more : String} {rest : List Part}
    (normal : Normal (.literal text :: .literal more :: rest)) : False := by
  cases normal.apart with
  | cons_cons apart _ => exact apart

theorem flush_literal {text : String} (some : text ≠ "") (parts : List Part) :
    flush text.toList.reverse parts = .literal text :: parts := by
  have notEmpty : text.toList.reverse.isEmpty = false := by simpa using some
  simp [flush, notEmpty]

/-- Literal text in front of parts is found again, unless they begin with a literal. -/
theorem scan_print {parts : List Part} (normal : Normal parts) (read : List Char)
    (border : read = [] ∨ ∀ text rest, parts ≠ .literal text :: rest) :
    scan read none (parts.flatMap printPart) = .ok (flush read parts) := by
  -- `border` keeps text that has been read from running into a literal behind it.
  induction parts generalizing read with
  | nil => rfl
  | cons part rest ih =>
    rw [List.flatMap_cons]
    cases part with
    | literal text =>
      have fresh : read = [] := border.resolve_right fun other => other text rest rfl
      subst fresh
      have next : ∀ more later, rest ≠ .literal more :: later := by
        rintro more later rfl
        exact normal.not_literal
      rw [printPart, scan_escapeChars, List.append_nil, ih normal.tail _ (.inr next),
        flush_literal (normal.literals text List.mem_cons_self)]
      rfl
    | placeholder p =>
      rw [scan_placeholder read (normal.placeholders p List.mem_cons_self),
        ih normal.tail [] (.inl rfl)]
      rfl

/-! From a text to parts and back. -/

theorem Normal.nil : Normal [] where
  literals _ member := by cases member
  apart := .nil
  placeholders _ member := by cases member

theorem Normal.cons_placeholder {p : Placeholder} {parts : List Part} (readable : p.Normal)
    (normal : Normal parts) : Normal (.placeholder p :: parts) where
  literals text member := by
    rcases List.mem_cons.mp member with same | later
    · cases same
    · exact normal.literals text later
  apart := normal.apart.cons fun _ _ => trivial
  placeholders q member := by
    rcases List.mem_cons.mp member with same | later
    · cases same
      exact readable
    · exact normal.placeholders q later

/-- Literal text read so far, in front of parts that do not begin with a literal. -/
theorem Normal.flush {parts : List Part} (normal : Normal parts)
    (next : ∀ text rest, parts ≠ .literal text :: rest) (read : List Char) :
    Normal (flush read parts) := by
  cases read with
  | nil => exact normal
  | cons c read =>
    refine {
      literals := fun text member => ?_
      apart := normal.apart.cons fun part first => ?_
      placeholders := fun p member => ?_ }
    · rcases List.mem_cons.mp member with same | later
      · cases same
        simp
      · exact normal.literals text later
    · cases part with
      | literal text =>
        obtain ⟨rest, begins⟩ := List.head?_eq_some_iff.mp first
        exact absurd begins (next text rest)
      | placeholder p => trivial
    · rcases List.mem_cons.mp member with same | later
      · cases same
      · exact normal.placeholders p later

/-- Only normal parts are found. -/
theorem normal_of_scan {read cs : List Char} {inner : Option (List Char)} {parts : List Part}
    (noBrace : ∀ text, inner = some text → ∀ c ∈ text, c ≠ '\x7b' ∧ c ≠ '\x7d')
    (scanned : scan read inner cs = .ok parts) : Normal parts := by
  -- Any brace ends a placeholder, so none gets into what has been read of it.
  have outside : ∀ text, (none : Option (List Char)) = some text →
      ∀ c ∈ text, c ≠ '\x7b' ∧ c ≠ '\x7d' := by
    rintro _ ⟨⟩
  fun_induction scan read inner cs generalizing parts with
  | case1 read =>
    cases scanned
    exact Normal.nil.flush (fun _ _ begins => by cases begins) read
  | case2 read rest ih => exact ih outside scanned
  | case3 read rest ih => exact ih outside scanned
  | case4 read rest single ih =>
    refine ih (fun text opened c member => ?_) scanned
    cases opened
    cases member
  | case5 read c rest _ notPair notOpening ih => exact ih outside scanned
  | case6 read inner => cases scanned
  | case7 read inner rest => cases scanned
  | case8 read inner rest ih =>
    cases placed : Placeholder.read inner.reverse with
    | error fault =>
      rw [placed] at scanned
      cases scanned
    | ok p =>
      cases found : scan [] none rest with
      | error fault =>
        rw [placed, found] at scanned
        cases scanned
      | ok later =>
        rw [placed, found] at scanned
        cases scanned
        have readable := Placeholder.normal_of_read
          (fun c member => noBrace inner rfl c (List.mem_reverse.mp member)) placed
        exact ((ih outside found).cons_placeholder readable).flush
          (fun _ _ begins => by cases begins) read
  | case9 read inner c rest notOpening notClosing ih =>
    refine ih (fun text opened d member => ?_) scanned
    cases opened
    rcases List.mem_cons.mp member with rfl | before
    · exact ⟨notOpening, notClosing⟩
    · exact noBrace inner rfl d before

theorem parse_print {parts : List Part} (normal : Normal parts) :
    parse (print parts) = .ok parts := by
  rw [parse_eq_ok_iff, print, String.toList_ofList, scan_print normal [] (.inl rfl)]
  rfl

theorem normal_of_parse {text : String} {parts : List Part} (parsed : parse text = .ok parts) :
    Normal parts :=
  normal_of_scan (by rintro _ ⟨⟩) (parse_eq_ok_iff.mp parsed)

end Template

namespace Context

variable (context : Context) (apiKeyName : Option String) (scope : Scope)

/-- A text with each brace doubled stands for the text itself. -/
theorem formatString_escape (text : String) :
    context.formatString apiKeyName scope (Template.escape text) = .ok text := by
  have parsed : Template.parse (Template.escape text) =
      .ok (Template.flush text.toList.reverse []) := by
    rw [Template.parse_eq_ok_iff, Template.escape, String.toList_ofList,
      ← List.append_nil (Template.escapeChars _), Template.scan_escapeChars, List.append_nil]
    rfl
  rw [formatString_eq, parsed]
  change context.partsText apiKeyName scope (Template.flush text.toList.reverse []) = _
  rw [partsText_flush, List.reverse_reverse, String.ofList_toList]

end Context

namespace Template

/-- Normal parts are read back from their text, no other parts are ever read, and what a text with
doubled braces stands for is the text. -/
theorem print_parse :
    (∀ parts : List Part, Normal parts →
      parse (print parts) = .ok parts) ∧
    (∀ (text : String) (parts : List Part), parse text = .ok parts →
      Normal parts ∧ parse (print parts) = .ok parts) ∧
    (∀ (context : Context) (apiKeyName : Option String) (scope : Scope) (text : String),
      context.formatString apiKeyName scope (escape text) = .ok text) := by
  refine ⟨fun parts normal => parse_print normal, fun text parts parsed => ?_,
    fun context apiKeyName scope text => context.formatString_escape apiKeyName scope text⟩
  have normal := normal_of_parse parsed
  exact ⟨normal, parse_print normal⟩

/-- A placeholder that is itself in braces. -/
def braced : List Part := [.literal "\x7b", .placeholder ⟨"p", some 2⟩, .literal "\x7d"]

theorem print_parse_braced :
    Normal braced ∧
      print braced = "\x7b\x7b\x7bp:.2\x7d\x7d\x7d" ∧
      parse (print braced) = .ok braced := by
  have reread := print_parse.2.1 "\x7b\x7b\x7bp: .2f \x7d\x7d\x7d" braced rfl
  exact ⟨reread.1, rfl, reread.2⟩

end Template

end Newsreel
