import Mathlib.Data.List.Forall2
import Newsreel.Proofs.Context.Format

/-!
Values filled in from a context.

Filling in a value reaches its strings and nothing else: objects keep their names, arrays their
length and all other values stay. What a string stands for takes its place as it is, however large,
and no template is looked for in it. The first string in the order of the document that cannot be
filled in decides how filling in the value fails.
-/

namespace Newsreel

namespace Outcome

variable {ε α β γ : Type}

/-- How an outcome fails, if it does. -/
def failure? : Except ε α → Option ε
  | .ok _ => none
  | .error error => some error

theorem failure?_eq_some_iff {outcome : Except ε α} {error : ε} :
    failure? outcome = some error ↔ outcome = .error error := by
  cases outcome <;> simp [failure?]

theorem failure?_eq_none_iff {outcome : Except ε α} :
    failure? outcome = none ↔ ∃ a, outcome = .ok a := by
  cases outcome <;> simp [failure?]

theorem failure?_map (outcome : Except ε α) (f : α → β) :
    failure? (do return f (← outcome)) = failure? outcome := by
  cases outcome <;> rfl

/-- Of two outcomes the first that fails decides. -/
theorem failure?_both (first : Except ε α) (second : Except ε β) (f : α → β → γ) :
    failure? (do let a ← first; let b ← second; return f a b) =
      (failure? first).or (failure? second) := by
  cases first with
  | error error => rfl
  | ok a => cases second <;> rfl

end Outcome

namespace Value

mutual
/-- The strings in a value, in the order of the document. Names of fields are not among them. -/
def strings : Value → List String
  | .null => []
  | .bool _ => []
  | .number _ => []
  | .string text => [text]
  | .array items => stringsOfItems items
  | .object fields => stringsOfFields fields

def stringsOfItems : List Value → List String
  | [] => []
  | item :: items => strings item ++ stringsOfItems items

def stringsOfFields : List (String × Value) → List String
  | [] => []
  | (_, value) :: fields => strings value ++ stringsOfFields fields
end

/-- The value at a place: each number counts off an item or a field on the way down. -/
def node? : List Nat → Value → Option Value
  | [], value => some value
  | place :: rest, .array items => items[place]?.bind (node? rest)
  | place :: rest, .object fields => fields[place]?.bind fun field => node? rest field.2
  | _ :: _, _ => none

end Value

namespace Template

/-- The text is one placeholder and nothing else, and asks for no decimal places. -/
def IsLone (text : String) (p : Placeholder) : Prop :=
  parse text = .ok [.placeholder p] ∧ p.precision = none

theorem isLone_of_single? {text : String} {parts : List Part} {p : Placeholder}
    (parsed : parse text = .ok parts) (single : single? parts = some p) : IsLone text p := by
  obtain ⟨rfl, unformatted⟩ := eq_of_single? single
  exact ⟨parsed, unformatted⟩

theorem IsLone.single? {text : String} {p : Placeholder} (lone : IsLone text p) :
    single? [.placeholder p] = some p := by
  rw [Template.single?, lone.2]
  rfl

/-- There is no placeholder without braces. -/
theorem IsLone.hasBrace {text : String} {p : Placeholder} (lone : IsLone text p) :
    text.toList.any isBrace = true := by
  by_contra plain
  have parsed := lone.1
  rw [parse_plain (Bool.eq_false_iff.mpr plain), flush] at parsed
  split at parsed <;> cases parsed

end Template

namespace Context

variable {context : Context} {apiKeyName : Option String} {scope : Scope}

mutual
theorem failure?_deepFormat : (value : Value) →
    Outcome.failure? (context.deepFormat apiKeyName scope value) =
      value.strings.findSome? fun text =>
        Outcome.failure? (context.formatTemplate apiKeyName scope text)
  | .null => rfl
  | .bool _ => rfl
  | .number _ => rfl
  | .string text => by
    rw [deepFormat, Value.strings, List.findSome?_singleton]
  | .array items => by
    rw [deepFormat, Outcome.failure?_map, failure?_deepFormatItems items, Value.strings]
  | .object fields => by
    rw [deepFormat, Outcome.failure?_map, failure?_deepFormatFields fields, Value.strings]

theorem failure?_deepFormatItems : (items : List Value) →
    Outcome.failure? (context.deepFormatItems apiKeyName scope items) =
      (Value.stringsOfItems items).findSome? fun text =>
        Outcome.failure? (context.formatTemplate apiKeyName scope text)
  | [] => rfl
  | item :: items => by
    rw [deepFormatItems, Outcome.failure?_both, failure?_deepFormat item,
      failure?_deepFormatItems items, Value.stringsOfItems, List.findSome?_append]

theorem failure?_deepFormatFields : (fields : List (String × Value)) →
    Outcome.failure? (context.deepFormatFields apiKeyName scope fields) =
      (Value.stringsOfFields fields).findSome? fun text =>
        Outcome.failure? (context.formatTemplate apiKeyName scope text)
  | [] => rfl
  | (name, value) :: fields => by
    rw [deepFormatFields, Outcome.failure?_both, failure?_deepFormat value,
      failure?_deepFormatFields fields, Value.stringsOfFields, List.findSome?_append]
end

/-! What stands where in the filled in value. -/

theorem deepFormatItems_ok {items results : List Value}
    (success : context.deepFormatItems apiKeyName scope items = .ok results) :
    List.Forall₂ (fun item filled => context.deepFormat apiKeyName scope item = .ok filled)
      items results := by
  induction items generalizing results with
  | nil =>
    cases success
    exact .nil
  | cons item rest ih =>
    obtain ⟨filled, here, success⟩ := Outcome.bind_ok_iff.mp success
    obtain ⟨others, later, success⟩ := Outcome.bind_ok_iff.mp success
    cases success
    exact .cons here (ih later)

theorem deepFormatFields_ok {fields results : List (String × Value)}
    (success : context.deepFormatFields apiKeyName scope fields = .ok results) :
    List.Forall₂ (fun field filled => field.1 = filled.1 ∧
      context.deepFormat apiKeyName scope field.2 = .ok filled.2) fields results := by
  induction fields generalizing results with
  | nil =>
    cases success
    exact .nil
  | cons field rest ih =>
    obtain ⟨filled, here, success⟩ := Outcome.bind_ok_iff.mp success
    obtain ⟨others, later, success⟩ := Outcome.bind_ok_iff.mp success
    cases success
    exact .cons ⟨rfl, here⟩ (ih later)

/-- Each node of a value is filled in at its own place. -/
theorem node?_deepFormat {place : List Nat} {value result node : Value}
    (success : context.deepFormat apiKeyName scope value = .ok result)
    (there : value.node? place = some node) :
    ∃ filled, result.node? place = some filled ∧
      context.deepFormat apiKeyName scope node = .ok filled := by
  induction place generalizing value result with
  | nil =>
    cases there
    exact ⟨result, rfl, success⟩
  | cons place rest ih =>
    cases value with
    | array items =>
      obtain ⟨results, within, success⟩ := Outcome.bind_ok_iff.mp success
      cases success
      obtain ⟨item, here, below⟩ := Option.bind_eq_some_iff.mp there
      obtain ⟨filled, place, made⟩ := exists_at_of_forall₂ (deepFormatItems_ok within) here
      rw [Value.node?, place, Option.bind_some]
      exact ih made below
    | object fields =>
      obtain ⟨results, within, success⟩ := Outcome.bind_ok_iff.mp success
      cases success
      obtain ⟨field, here, below⟩ := Option.bind_eq_some_iff.mp there
      obtain ⟨filled, place, -, made⟩ := exists_at_of_forall₂ (deepFormatFields_ok within) here
      rw [Value.node?, place, Option.bind_some]
      exact ih made below
    | _ => cases there

/-- What a node turns into: an object keeps its names, an array its length, a string gives way to
what it stands for, and any other value stays. -/
def Fills (context : Context) (apiKeyName : Option String) (scope : Scope) (node filled : Value) :
    Prop := match node with
  | .string text => context.formatWithKey apiKeyName scope (.string text) = .ok filled
  | .array items => ∃ results, filled = .array results ∧ results.length = items.length
  | .object fields =>
    ∃ results, filled = .object results ∧ results.map Prod.fst = fields.map Prod.fst
  | other => filled = other

theorem fills_of_deepFormat {node filled : Value}
    (success : context.deepFormat apiKeyName scope node = .ok filled) :
    context.Fills apiKeyName scope node filled := by
  cases node with
  | string text => exact success
  | array items =>
    obtain ⟨results, within, success⟩ := Outcome.bind_ok_iff.mp success
    cases success
    exact ⟨results, rfl, (deepFormatItems_ok within).length_eq.symm⟩
  | object fields =>
    obtain ⟨results, within, success⟩ := Outcome.bind_ok_iff.mp success
    cases success
    have names := (deepFormatFields_ok within).imp fun field filled both => both.1
    rw [← List.forall₂_map_right_iff, ← List.forall₂_map_left_iff, List.forall₂_eq_eq_eq] at names
    exact ⟨results, rfl, names.symm⟩
  | _ =>
    cases success
    rfl

/-! What one string stands for. -/

theorem formatTemplate_plain {text : String} (plain : text.toList.any Template.isBrace = false) :
    context.formatTemplate apiKeyName scope text = .ok (.string text) :=
  if_neg (Bool.eq_false_iff.mp plain)

theorem formatTemplate_lone {text : String} {p : Placeholder} (lone : Template.IsLone text p) :
    context.formatTemplate apiKeyName scope text = context.resolve apiKeyName scope p := by
  refine (if_pos lone.hasBrace).trans ?_
  rw [lone.1]
  simp only [bind, Except.bind, lone.single?]

theorem formatTemplate_text {text : String} {filled : Value}
    (notLone : ∀ p, ¬Template.IsLone text p)
    (success : context.formatTemplate apiKeyName scope text = .ok filled) :
    ∃ shown, filled = .string shown := by
  rw [formatTemplate] at success
  split at success
  · obtain ⟨parts, parsed, success⟩ := Outcome.bind_ok_iff.mp success
    split at success
    · next p single => exact absurd (Template.isLone_of_single? parsed single) (notLone p)
    · obtain ⟨shown, -, success⟩ := Outcome.bind_ok_iff.mp success
      cases success
      exact ⟨shown, rfl⟩
  · cases success
    exact ⟨text, rfl⟩

/-! Values without braces. -/

mutual
theorem deepFormat_plain : (value : Value) →
    (∀ text ∈ value.strings, text.toList.any Template.isBrace = false) →
    context.deepFormat apiKeyName scope value = .ok value
  | .null, _ => rfl
  | .bool _, _ => rfl
  | .number _, _ => rfl
  | .string text, plain => formatTemplate_plain (plain text List.mem_cons_self)
  | .array items, plain => by
    rw [deepFormat, deepFormatItems_plain items plain]
    rfl
  | .object fields, plain => by
    rw [deepFormat, deepFormatFields_plain fields plain]
    rfl

theorem deepFormatItems_plain : (items : List Value) →
    (∀ text ∈ Value.stringsOfItems items, text.toList.any Template.isBrace = false) →
    context.deepFormatItems apiKeyName scope items = .ok items
  | [], _ => rfl
  | item :: items, plain => by
    rw [Value.stringsOfItems, List.forall_mem_append] at plain
    rw [deepFormatItems, deepFormat_plain item plain.1, deepFormatItems_plain items plain.2]
    rfl

theorem deepFormatFields_plain : (fields : List (String × Value)) →
    (∀ text ∈ Value.stringsOfFields fields, text.toList.any Template.isBrace = false) →
    context.deepFormatFields apiKeyName scope fields = .ok fields
  | [], _ => rfl
  | (name, value) :: fields, plain => by
    rw [Value.stringsOfFields, List.forall_mem_append] at plain
    rw [deepFormatFields, deepFormat_plain value plain.1, deepFormatFields_plain fields plain.2]
    rfl
end

/-- Filling in a value succeeds where every string in it can be filled in, and else fails as the
first that cannot. Each node then stands where it stood: an object with the same names, an array of
the same length, what a string stands for, or the value that was there. A lone placeholder stands
for the value it leads to and any other string for a text; a value without braces stands for itself.
-/
theorem deepFormat_fills_strings (context : Context) (apiKeyName : Option String) (scope : Scope)
    (value : Value) :
    ((∃ result, context.deepFormat apiKeyName scope value = .ok result) ↔
      ∀ text ∈ value.strings,
        ∃ filled, context.formatWithKey apiKeyName scope (.string text) = .ok filled) ∧
    (∀ error, context.deepFormat apiKeyName scope value = .error error ↔
      ∃ before text after, value.strings = before ++ text :: after ∧
        (∀ earlier ∈ before,
          ∃ filled, context.formatWithKey apiKeyName scope (.string earlier) = .ok filled) ∧
        context.formatWithKey apiKeyName scope (.string text) = .error error) ∧
    (∀ result, context.deepFormat apiKeyName scope value = .ok result →
      ∀ place node, value.node? place = some node →
        ∃ filled, result.node? place = some filled ∧
          context.Fills apiKeyName scope node filled) ∧
    (∀ text filled, context.formatWithKey apiKeyName scope (.string text) = .ok filled →
      (∀ p, Template.IsLone text p → context.resolve apiKeyName scope p = .ok filled) ∧
      ((∀ p, ¬Template.IsLone text p) → ∃ shown, filled = .string shown)) ∧
    ((∀ text ∈ value.strings, text.toList.any Template.isBrace = false) →
      context.deepFormat apiKeyName scope value = .ok value) := by
  refine ⟨?_, fun error => ?_, ?_, ?_, deepFormat_plain value⟩
  · rw [← Outcome.failure?_eq_none_iff, failure?_deepFormat, List.findSome?_eq_none_iff]
    exact forall₂_congr fun text _ => Outcome.failure?_eq_none_iff
  · rw [← Outcome.failure?_eq_some_iff, failure?_deepFormat, List.findSome?_eq_some_iff]
    simp only [Outcome.failure?_eq_some_iff, Outcome.failure?_eq_none_iff]
    constructor
    · rintro ⟨before, text, after, strings, fails, earlier⟩
      exact ⟨before, text, after, strings, earlier, fails⟩
    · rintro ⟨before, text, after, strings, earlier, fails⟩
      exact ⟨before, text, after, strings, fails, earlier⟩
  · intro result success place node there
    obtain ⟨filled, here, made⟩ := node?_deepFormat success there
    exact ⟨filled, here, fills_of_deepFormat made⟩
  · intro text filled success
    refine ⟨fun p lone => ?_, fun notLone => formatTemplate_text notLone success⟩
    rw [← formatTemplate_lone lone]
    exact success

/-- The words for the rain, one of them in braces. -/
def rainWords : Context where
  data := .object [("rain", .array [.string "\x7bsun\x7d", .null])]
  config := JobConfig.named "news"
  runId := "11111111-2222-4333-8444-555555555555"

/-- A page whose field is named like a template, with the rain as its first entry. -/
def rainPage : Value :=
  .object [("\x7brain\x7d", .string "\x7brain\x7d"), ("more", .string "\x7brain.0\x7d!")]

/-- The list comes in where its template stood and its words in braces stay; of two strings that
cannot be filled in the first one is told. -/
theorem deepFormat_fills_strings_rainPage :
    (∃ result, rainWords.deepFormat none Scope.root rainPage = .ok result) ∧
    (∀ result, rainWords.deepFormat none Scope.root rainPage = .ok result →
      result.node? [0] = some (.array [.string "\x7bsun\x7d", .null]) ∧
      result.node? [1] = some (.string "\x7bsun\x7d!")) ∧
    rainWords.deepFormat none Scope.root
      (.array [.string "wind", .string "\x7bsky\x7d", .string "\x7b"]) =
        .error (.unresolved "sky") := by
  obtain ⟨succeeds, -, nodes, -, -⟩ :=
    deepFormat_fills_strings rainWords none Scope.root rainPage
  refine ⟨succeeds.mpr ?_, fun result success => ⟨?_, ?_⟩, ?_⟩
  · have strings : rainPage.strings = ["\x7brain\x7d", "\x7brain.0\x7d!"] := rfl
    simp only [strings, List.forall_mem_cons]
    exact ⟨⟨_, rfl⟩, ⟨_, rfl⟩, nofun⟩
  · obtain ⟨filled, here, stands⟩ := nodes result success [0] _ rfl
    rw [here]
    cases stands
    rfl
  · obtain ⟨filled, here, stands⟩ := nodes result success [1] _ rfl
    rw [here]
    cases stands
    rfl
  · refine ((deepFormat_fills_strings rainWords none Scope.root _).2.1 _).mpr
      ⟨["wind"], "\x7bsky\x7d", ["\x7b"], rfl, ?_, rfl⟩
    rw [List.forall_mem_singleton]
    exact ⟨_, rfl⟩

end Context

end Newsreel
