import Newsreel.Template

/-!
How a template is scanned.

Literal text already read plays no part in what is found behind it, and braces are taken in pairs from
the left. So the parts of a text put together from two templates are the parts of the first one
followed by those of the second one, unless a closing brace at the border finds a partner. Literals
that meet become one.
-/

namespace Newsreel.Template

def isBrace (c : Char) : Bool := c = '\x7b' || c = '\x7d'

/-- A part in front of others; two literals that meet become one. -/
def consPart : Part → List Part → List Part
  | .literal text, .literal more :: rest => .literal (text ++ more) :: rest
  | part, rest => part :: rest

/-- Parts one behind the other. -/
def join (first second : List Part) : List Part := first.foldr consPart second

/-- Literal text, backwards, in front of parts. -/
def prepend (read : List Char) (parts : List Part) : List Part :=
  if read.isEmpty then parts else consPart (.literal (String.ofList read.reverse)) parts

theorem consPart_literal (text more : String) (parts : List Part) :
    consPart (.literal text) (consPart (.literal more) parts) =
      consPart (.literal (text ++ more)) parts := by
  cases parts with
  | nil => rfl
  | cons part rest =>
    cases part with
    | literal last => simp [consPart, String.append_assoc]
    | placeholder p => rfl

theorem prepend_cons (c : Char) (read : List Char) (parts : List Part) :
    prepend (c :: read) parts = prepend read (prepend [c] parts) := by
  cases read with
  | nil => rfl
  | cons d rest =>
    have split : String.ofList (c :: d :: rest).reverse =
        String.ofList (d :: rest).reverse ++ String.ofList [c] := by
      rw [← String.ofList_append, List.reverse_cons]
    change consPart (.literal (String.ofList (c :: d :: rest).reverse)) parts =
      consPart (.literal (String.ofList (d :: rest).reverse))
        (consPart (.literal (String.ofList [c])) parts)
    rw [split, consPart_literal]

theorem map_prepend_cons {ε : Type} (c : Char) (read : List Char) (found : Except ε (List Part)) :
    found.map (prepend (c :: read)) = (found.map (prepend [c])).map (prepend read) := by
  cases found with
  | error error => rfl
  | ok parts => exact congrArg Except.ok (prepend_cons c read parts)

/-- Between literals and placeholders there is nothing to be merged. -/
theorem flush_placeholder (read : List Char) (p : Placeholder) (parts : List Part) :
    flush read (.placeholder p :: parts) = prepend read (.placeholder p :: parts) := by
  cases read <;> rfl

theorem flush_nil (read : List Char) : flush read [] = prepend read [] := by
  cases read <;> rfl

theorem join_flush_nil (read : List Char) (parts : List Part) :
    join (flush read []) parts = prepend read parts := by
  cases read <;> rfl

theorem join_flush_placeholder (read : List Char) (p : Placeholder) (first second : List Part) :
    join (flush read (.placeholder p :: first)) second =
      flush read (.placeholder p :: join first second) := by
  cases read <;> rfl

/-! One character at a time. -/

/-- An opening brace without a second one begins a placeholder. -/
theorem scan_begins (read : List Char) {rest : List Char}
    (single : ∀ more, rest = '\x7b' :: more → False) :
    scan read none ('\x7b' :: rest) = scan read (some []) rest :=
  scan.eq_4 read rest single

/-- Any other character that no second brace joins is literal text. -/
theorem scan_literal (read : List Char) {c : Char} {rest : List Char} (notOpening : c ≠ '\x7b')
    (notPair : ∀ more, c = '\x7d' → rest = '\x7d' :: more → False) :
    scan read none (c :: rest) = scan (c :: read) none rest :=
  scan.eq_5 read c rest (fun _ opening => absurd opening notOpening) notPair notOpening

theorem scan_inside (read inner : List Char) {c : Char} (rest : List Char)
    (notOpening : c ≠ '\x7b') (notClosing : c ≠ '\x7d') :
    scan read (some inner) (c :: rest) = scan read (some (c :: inner)) rest :=
  scan.eq_9 read inner c rest notOpening notClosing

/-! Two texts. -/

/-- The literal text already read comes in front of whatever is found. -/
theorem scan_read (read : List Char) (inner : Option (List Char)) (text : List Char) :
    scan read inner text = (scan [] inner text).map (prepend read) := by
  have general : ∀ (passed : List Char) (inner : Option (List Char)) (text read : List Char),
      scan read inner text = (scan [] inner text).map (prepend read) := by
    intro passed inner text
    fun_induction scan passed inner text with
    | case1 passed =>
      intro read
      rw [scan, scan, flush_nil]
      rfl
    | case2 passed rest ih =>
      intro read
      rw [scan, scan, ih, ih ['\x7b'], map_prepend_cons]
    | case3 passed rest ih =>
      intro read
      rw [scan, scan, ih, ih ['\x7d'], map_prepend_cons]
    | case4 passed rest single ih =>
      intro read
      rw [scan_begins read single, scan_begins [] single, ih]
    | case5 passed c rest _ notPair notOpening ih =>
      intro read
      rw [scan_literal read notOpening notPair, scan_literal [] notOpening notPair, ih, ih [c],
        map_prepend_cons]
    | case6 passed inner =>
      intro read
      rfl
    | case7 passed inner rest =>
      intro read
      rfl
    | case8 passed inner rest ih =>
      intro read
      rw [scan, scan]
      cases Placeholder.read inner.reverse with
      | error fault => rfl
      | ok p =>
        cases scan [] none rest with
        | error fault => rfl
        | ok parts => exact congrArg Except.ok (flush_placeholder read p parts)
    | case9 passed inner c rest notOpening notClosing ih =>
      intro read
      rw [scan_inside read inner rest notOpening notClosing,
        scan_inside [] inner rest notOpening notClosing, ih]
  exact general read inner text read

/-- A template in front of a text is scanned as it is alone, and the text behind it too, unless a
closing brace at the border finds a partner. -/
theorem scan_append {read first second : List Char} {inner : Option (List Char)} {parts : List Part}
    (scanned : scan read inner first = .ok parts) (apart : second.head? ≠ some '\x7d') :
    scan read inner (first ++ second) = (scan [] none second).map (join parts) := by
  have noPartner : ∀ more, second ≠ '\x7d' :: more := by
    rintro more rfl
    exact apart rfl
  fun_induction scan read inner first generalizing parts with
  | case1 read =>
    cases scanned
    rw [List.nil_append, scan_read]
    congr 1
    funext found
    exact (join_flush_nil read found).symm
  | case2 read rest ih =>
    rw [List.cons_append, List.cons_append, scan, ih scanned]
  | case3 read rest ih =>
    rw [List.cons_append, List.cons_append, scan, ih scanned]
  | case4 read rest single ih =>
    rw [List.cons_append, scan_begins, ih scanned]
    intro more opening
    cases rest with
    | nil => cases scanned
    | cons c rest =>
      cases opening
      exact single rest rfl
  | case5 read c rest _ notPair notOpening ih =>
    rw [List.cons_append, scan_literal read notOpening, ih scanned]
    intro more closing pair
    cases rest with
    | nil => exact noPartner more pair
    | cons d rest =>
      cases pair
      exact notPair rest closing rfl
  | case6 read inner => cases scanned
  | case7 read inner rest => cases scanned
  | case8 read inner rest ih =>
    cases placed : Placeholder.read inner.reverse with
    | error fault =>
      rw [placed] at scanned
      cases scanned
    | ok p =>
      cases found : scan [] none rest with
      | error fault =>
        rw [placed, found] at scanned
        cases scanned
      | ok later =>
        rw [placed, found] at scanned
        cases scanned
        rw [List.cons_append, scan, placed, ih found]
        cases scan [] none second with
        | error fault => rfl
        | ok behind => exact congrArg Except.ok (join_flush_placeholder read p later behind).symm
  | case9 read inner c rest notOpening notClosing ih =>
    rw [List.cons_append, scan_inside read inner _ notOpening notClosing, ih scanned]

theorem parse_eq_ok_iff {template : String} {parts : List Part} :
    parse template = .ok parts ↔ scan [] none template.toList = .ok parts := by
  rw [parse]
  cases scan [] none template.toList with
  | error fault => simp
  | ok found => simp

/-- The parts of two templates written one behind the other. -/
theorem parse_append {first second : String} {parts more : List Part}
    (firstParts : parse first = .ok parts) (secondParts : parse second = .ok more)
    (apart : second.toList.head? ≠ some '\x7d') :
    parse (first ++ second) = .ok (join parts more) := by
  rw [parse_eq_ok_iff] at firstParts secondParts ⊢
  rw [String.toList_append, scan_append firstParts apart, secondParts]
  rfl

end Newsreel.Template
