import Newsreel.Proofs.Context.Proper
import Newsreel.Proofs.Decimal.Text
import Newsreel.Proofs.Json.Strings

/-!
The text of a value tells it from every other value.

The text of a value as JSON ends where it ends, whatever is written behind it: its first character
tells the kind of the value, a string is read up to its closing quote, a number goes as far as its
characters go, and the entries of an array or an object end one after the other. As a part of a
longer text a string stands for itself, so there it may spell out a value of another kind.
-/

namespace Newsreel

/-! ## Numbers -/

namespace Number

variable {m n : Number}

theorem numeric_text (finite : n.isFinite = true) :
    ∀ c ∈ n.text.toList, Decimal.isNumeric c = true := by
  cases n with
  | int n =>
    intro c member
    rcases Text.mem_integer member with rfl | digit
    · decide
    · exact Decimal.isNumeric_of_isDigit digit
  | float x => exact Decimal.numeric_write Decimal.documentLayout finite

theorem not_isReal_int (n : Int) : ¬ Decimal.IsReal (Number.int n).text.toList := by
  rintro (point | exponent)
  · have digit := Text.mem_integer point
    revert digit
    decide
  · have digit := Text.mem_integer exponent
    revert digit
    decide

theorem toList_text_ne_nil (finite : n.isFinite = true) : n.text.toList ≠ [] := by
  cases n with
  | int n => exact Text.toList_integer_ne_nil n
  | float x =>
    rcases Decimal.isReal_write finite with point | exponent
    · exact List.ne_nil_of_mem point
    · exact List.ne_nil_of_mem exponent

theorem text_injective (finite : m.isFinite = true) (other : n.isFinite = true)
    (same : m.text = n.text) : m = n := by
  cases m with
  | int m =>
    cases n with
    | int n => rw [Text.integer_injective same]
    | float y =>
      have real : Decimal.IsReal (Number.float y).text.toList := Decimal.isReal_write other
      rw [← same] at real
      exact absurd real (not_isReal_int m)
  | float x =>
    cases n with
    | int n =>
      have real : Decimal.IsReal (Number.float x).text.toList := Decimal.isReal_write finite
      rw [same] at real
      exact absurd real (not_isReal_int n)
    | float y => rw [Decimal.write_injective Decimal.documentLayout finite other same]

end Number

namespace Json

/-! ## Where values end -/

/-- What stands behind a value does not go on with a number. -/
def Ends (rest : List Char) : Prop := ∀ c ∈ rest.head?, Decimal.isNumeric c = false

/-- The text of a number ends where its characters end. -/
theorem number_append_inj {m n : Number} {front back : List Char} (ends : Ends front)
    (stops : Ends back) (finite : m.isFinite = true) (other : n.isFinite = true)
    (same : m.text.toList ++ front = n.text.toList ++ back) : m = n ∧ front = back := by
  have one := Text.span_append (Number.numeric_text finite) ends
  rw [same, Text.span_append (Number.numeric_text other) stops, Prod.mk.injEq, String.toList_inj]
    at one
  exact ⟨Number.text_injective finite other one.1.symm, one.2.symm⟩

/-- The kind of value whose text begins with a character. -/
def kindOf? (c : Char) : Option String :=
  if Decimal.isNumeric c then some "a number"
  else match c with
    | 'n' => some "null"
    | 't' => some "a boolean"
    | 'f' => some "a boolean"
    | '"' => some "a string"
    | '[' => some "an array"
    | '\x7b' => some "an object"
    | _ => none

theorem exists_head {value : Value} (proper : value.Proper) :
    ∃ c rest, (compact value).toList = c :: rest ∧ kindOf? c = some value.kindText := by
  cases proper with
  | null => exact ⟨'n', ['u', 'l', 'l'], rfl, rfl⟩
  | bool b =>
    cases b with
    | false => exact ⟨'f', ['a', 'l', 's', 'e'], rfl, rfl⟩
    | true => exact ⟨'t', ['r', 'u', 'e'], rfl, rfl⟩
  | @number n finite =>
    obtain ⟨c, rest, text⟩ := List.exists_cons_of_ne_nil (Number.toList_text_ne_nil finite)
    have numeric := Number.numeric_text finite c (by rw [text]; exact List.mem_cons_self)
    exact ⟨c, rest, text, by unfold kindOf?; rw [if_pos numeric]; rfl⟩
  | string s => exact ⟨'"', _, toList_quoted s, rfl⟩
  | array each => exact ⟨'[', _, by rw [compact, String.toList_append, String.toList_append]; rfl, rfl⟩
  | object nodup each =>
    exact ⟨'\x7b', _, by rw [compact, String.toList_append, String.toList_append]; rfl, rfl⟩

/-! ## Lists of entries -/

section

variable {α : Type} {entry : α → List Char} {close : Char}

/-- What follows an entry: others, each behind a comma, and the closing character. -/
def moreText (entry : α → List Char) (close : Char) : List α → List Char → List Char
  | [], rest => close :: rest
  | next :: others, rest => ',' :: (entry next ++ moreText entry close others rest)

/-- Entries with commas between them and the closing character. -/
def entriesText (entry : α → List Char) (close : Char) : List α → List Char → List Char
  | [], rest => close :: rest
  | first :: others, rest => entry first ++ moreText entry close others rest

/-- What is asked of the texts of entries: each one ends by itself, and none begins like a closing. -/
structure Apart (entry : α → List Char) (close : Char) (as bs : List α) : Prop where
  closes : Decimal.isNumeric close = false
  comma : close ≠ ','
  begins : ∀ a, a ∈ as ∨ a ∈ bs → ∀ front rest, entry a ++ front ≠ close :: rest
  cancels : ∀ a ∈ as, ∀ b ∈ bs, ∀ {front back}, Ends front → Ends back →
    entry a ++ front = entry b ++ back → a = b ∧ front = back

variable {a b : α} {as bs : List α} {front back : List Char}

theorem Apart.tail (apart : Apart entry close (a :: as) (b :: bs)) : Apart entry close as bs where
  closes := apart.closes
  comma := apart.comma
  begins c member := apart.begins c (member.imp (List.mem_cons_of_mem a) (List.mem_cons_of_mem b))
  cancels c left d right := apart.cancels c (List.mem_cons_of_mem a left) d (List.mem_cons_of_mem b right)

theorem Apart.ends (apart : Apart entry close as bs) (others : List α) (rest : List Char) :
    Ends (moreText entry close others rest) := by
  have comma : Decimal.isNumeric ',' = false := by decide
  cases others <;> rintro c ⟨⟩
  · exact apart.closes
  · exact comma

theorem Apart.moreText_inj (apart : Apart entry close as bs)
    (same : moreText entry close as front = moreText entry close bs back) :
    as = bs ∧ front = back := by
  induction as generalizing bs with
  | nil =>
    cases bs with
    | nil => exact ⟨rfl, List.tail_eq_of_cons_eq same⟩
    | cons b bs => exact absurd (List.head_eq_of_cons_eq same) apart.comma
  | cons a as ih =>
    cases bs with
    | nil => exact absurd (List.head_eq_of_cons_eq same).symm apart.comma
    | cons b bs =>
      obtain ⟨rfl, rest⟩ := apart.cancels a List.mem_cons_self b List.mem_cons_self
        (apart.ends as front) (apart.ends bs back) (List.tail_eq_of_cons_eq same)
      obtain ⟨rfl, rfl⟩ := ih apart.tail rest
      exact ⟨rfl, rfl⟩

theorem Apart.entriesText_inj (apart : Apart entry close as bs)
    (same : entriesText entry close as front = entriesText entry close bs back) :
    as = bs ∧ front = back := by
  cases as with
  | nil =>
    cases bs with
    | nil => exact ⟨rfl, List.tail_eq_of_cons_eq same⟩
    | cons b bs => exact absurd same.symm (apart.begins b (.inr List.mem_cons_self) _ _)
  | cons a as =>
    cases bs with
    | nil => exact absurd same (apart.begins a (.inl List.mem_cons_self) _ _)
    | cons b bs =>
      obtain ⟨rfl, rest⟩ := apart.cancels a List.mem_cons_self b List.mem_cons_self
        (apart.ends as front) (apart.ends bs back) same
      obtain ⟨rfl, rfl⟩ := apart.tail.moreText_inj rest
      exact ⟨rfl, rfl⟩

end

/-! ## Values -/

theorem toList_compactItems (items : List Value) (rest : List Char) :
    (compactItems items).toList ++ ']' :: rest =
      entriesText (fun item => (compact item).toList) ']' items rest := by
  induction items with
  | nil => rfl
  | cons item items ih =>
    cases items with
    | nil => simp [compactItems, entriesText, moreText]
    | cons next items =>
      simp only [compactItems, String.toList_append, List.append_assoc, ih]
      simp [entriesText, moreText]

theorem toList_compact_array (items : List Value) (rest : List Char) :
    (compact (.array items)).toList ++ rest =
      '[' :: entriesText (fun item => (compact item).toList) ']' items rest := by
  rw [compact, String.toList_append, String.toList_append, ← toList_compactItems]
  simp

/-- The text of a field. -/
def fieldText (field : String × Value) : List Char :=
  (quoted field.1).toList ++ ':' :: (compact field.2).toList

theorem toList_compactFields (fields : Fields) (rest : List Char) :
    (compactFields fields).toList ++ '}' :: rest = entriesText fieldText '}' fields rest := by
  induction fields with
  | nil => rfl
  | cons field fields ih =>
    obtain ⟨name, value⟩ := field
    cases fields with
    | nil => simp [compactFields, entriesText, moreText, fieldText]
    | cons next fields =>
      simp only [compactFields, String.toList_append, List.append_assoc, ih]
      simp [entriesText, moreText, fieldText]

theorem toList_compact_object (fields : Fields) (rest : List Char) :
    (compact (.object fields)).toList ++ rest = '\x7b' :: entriesText fieldText '\x7d' fields rest := by
  rw [compact, String.toList_append, String.toList_append, ← toList_compactFields]
  simp

/-- No value begins with a closing bracket. -/
theorem compact_append_ne {value : Value} (proper : value.Proper) {close : Char}
    (closes : kindOf? close = none) (front rest : List Char) :
    (compact value).toList ++ front ≠ close :: rest := by
  obtain ⟨c, text, begins, kind⟩ := exists_head proper
  rintro same
  rw [begins, List.cons_append, List.cons.injEq] at same
  rw [same.1, closes] at kind
  cases kind

/-- Values with the same beginning are of the same kind. -/
theorem kindText_eq {v w : Value} {front back : List Char} (proper : v.Proper) (other : w.Proper)
    (same : (compact v).toList ++ front = (compact w).toList ++ back) : v.kindText = w.kindText := by
  obtain ⟨c, text, begins, kind⟩ := exists_head proper
  obtain ⟨d, again, starts, alike⟩ := exists_head other
  rw [begins, starts, List.cons_append, List.cons_append, List.cons.injEq] at same
  rw [same.1, alike] at kind
  exact (Option.some.inj kind).symm

/-- Where the text of a value is found, there is no other value, and what follows is left over. -/
def Cancels (v w : Value) : Prop :=
  ∀ {front back : List Char}, Ends front → Ends back →
    (compact v).toList ++ front = (compact w).toList ++ back → v = w ∧ front = back

theorem apart_items {items others : List Value} (left : ∀ item ∈ items, item.Proper)
    (right : ∀ item ∈ others, item.Proper)
    (cancels : ∀ item ∈ items, ∀ other ∈ others, Cancels item other) :
    Apart (fun item => (compact item).toList) ']' items others where
  closes := by decide
  comma := by decide
  begins item listed := compact_append_ne (listed.elim (left item) (right item)) rfl
  cancels := cancels

theorem apart_fields {fields others : Fields}
    (cancels : ∀ field ∈ fields, ∀ other ∈ others, Cancels field.2 other.2) :
    Apart fieldText '\x7d' fields others where
  closes := by decide
  comma := by decide
  begins field _ front rest same := by
    rw [fieldText, toList_quoted] at same
    exact absurd (List.head_eq_of_cons_eq same) (by decide)
  cancels field listed other among front back ends stops same := by
    rw [fieldText, fieldText, List.append_assoc, List.append_assoc] at same
    obtain ⟨names, same⟩ := quoted_append_inj same
    obtain ⟨values, rest⟩ := cancels field listed other among ends stops
      (List.tail_eq_of_cons_eq same)
    exact ⟨Prod.ext names values, rest⟩

/-- The text of a value ends where it ends, whatever is written behind it, and no other value has
it. -/
theorem compact_append_inj {v w : Value} (proper : v.Proper) (other : w.Proper) : Cancels v w := by
  induction proper generalizing w with
  | null =>
    intro front back ends stops same
    have kind := kindText_eq .null other same
    cases w with
    | null => exact ⟨rfl, List.append_cancel_left same⟩
    | _ => simp [Value.kindText] at kind
  | bool b =>
    intro front back ends stops same
    have kind := kindText_eq (.bool b) other same
    cases w with
    | bool c =>
      cases b <;> cases c
      · exact ⟨rfl, List.append_cancel_left same⟩
      · exact absurd (List.head_eq_of_cons_eq same) (by decide)
      · exact absurd (List.head_eq_of_cons_eq same) (by decide)
      · exact ⟨rfl, List.append_cancel_left same⟩
    | _ => simp [Value.kindText] at kind
  | number finite =>
    intro front back ends stops same
    have kind := kindText_eq (.number finite) other same
    cases other with
    | number also =>
      obtain ⟨rfl, rest⟩ := number_append_inj ends stops finite also same
      exact ⟨rfl, rest⟩
    | _ => simp [Value.kindText] at kind
  | string s =>
    intro front back ends stops same
    have kind := kindText_eq (.string s) other same
    cases w with
    | string t =>
      obtain ⟨rfl, rest⟩ := quoted_append_inj same
      exact ⟨rfl, rest⟩
    | _ => simp [Value.kindText] at kind
  | array each ih =>
    intro front back ends stops same
    have kind := kindText_eq (.array each) other same
    cases other with
    | array all =>
      rw [toList_compact_array, toList_compact_array] at same
      have apart := apart_items each all fun item listed next among => ih item listed (all next among)
      obtain ⟨rfl, rest⟩ := apart.entriesText_inj (List.tail_eq_of_cons_eq same)
      exact ⟨rfl, rest⟩
    | _ => simp [Value.kindText] at kind
  | object nodup each ih =>
    intro front back ends stops same
    have kind := kindText_eq (.object nodup each) other same
    cases other with
    | object once all =>
      rw [toList_compact_object, toList_compact_object] at same
      have apart := apart_fields fun field listed next among => ih field listed (all next among)
      obtain ⟨rfl, rest⟩ := apart.entriesText_inj (List.tail_eq_of_cons_eq same)
      exact ⟨rfl, rest⟩
    | _ => simp [Value.kindText] at kind

/-- No two values have the same text. -/
theorem compact_injective {v w : Value} (proper : v.Proper) (other : w.Proper)
    (same : compact v = compact w) : v = w := by
  have ends : Ends [] := by
    rintro c ⟨⟩
  exact (compact_append_inj proper other ends ends (by rw [same])).1

end Json

namespace Value

/-- A string that is the text of a value of another kind. -/
def Spells (spelling value : Value) : Prop :=
  ∃ s, spelling = .string s ∧ value.text = s ∧ ∀ t, value ≠ .string t

theorem compact_ne_empty {value : Value} (proper : value.Proper) : Json.compact value ≠ "" := by
  obtain ⟨c, rest, text, -⟩ := Json.exists_head proper
  intro empty
  rw [empty] at text
  cases text

/-- A value that is no string stands for nothing or is written as JSON. -/
theorem text_cases (value : Value) :
    (∃ s, value = .string s) ∨
      (∀ t, value ≠ .string t) ∧ (value = .null ∨ value.text = Json.compact value) := by
  cases value with
  | string s => exact .inl ⟨s, rfl⟩
  | null => exact .inr ⟨by simp, .inl rfl⟩
  | _ => exact .inr ⟨by simp, .inr rfl⟩

/-- Two values have the same text only where one of them spells out the other. -/
theorem eq_or_spells_of_text_eq {v w : Value} (proper : v.Proper) (other : w.Proper)
    (same : v.text = w.text) : v = w ∨ v.Spells w ∨ w.Spells v := by
  rcases text_cases v with ⟨s, rfl⟩ | ⟨plain, written⟩
  · rcases text_cases w with ⟨t, rfl⟩ | ⟨bare, -⟩
    · exact .inl (congrArg Value.string same)
    · exact .inr (.inl ⟨s, rfl, same.symm, bare⟩)
  · rcases text_cases w with ⟨t, rfl⟩ | ⟨bare, shown⟩
    · exact .inr (.inr ⟨t, rfl, same, plain⟩)
    · left
      rcases written with rfl | written <;> rcases shown with rfl | shown
      · rfl
      · exact absurd (shown.symm.trans same.symm) (compact_ne_empty other)
      · exact absurd (written.symm.trans same) (compact_ne_empty proper)
      · exact Json.compact_injective proper other (written.symm.trans (same.trans shown))

end Value

end Newsreel
