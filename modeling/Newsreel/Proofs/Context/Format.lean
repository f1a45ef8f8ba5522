import Newsreel.Context.Format
import Newsreel.Proofs.Attempt
import Newsreel.Proofs.Template.Scan

/-!
What templates stand for, as texts.

A text without braces, a template that is a single placeholder and any other template are filled in
by different ways, but the text that comes out is in each case that of the parts one after the other.
So it does not matter where a template is cut, and what a placeholder stands for is never looked at
again.
-/

namespace Newsreel

namespace Template

/-- A text without braces is scanned as it stands. -/
theorem scan_plain (read : List Char) {text : List Char} (plain : text.any isBrace = false) :
    scan read none text = .ok (flush (text.reverse ++ read) []) := by
  induction text generalizing read with
  | nil => rfl
  | cons c rest ih =>
    rw [List.any_cons, Bool.or_eq_false_iff] at plain
    have visible : c ≠ '\x7b' ∧ c ≠ '\x7d' := by simpa [isBrace] using plain.1
    rw [scan_literal read visible.1 (fun _ closing => absurd closing visible.2), ih _ plain.2]
    simp

/-- A text without braces has no placeholders. -/
theorem parse_plain {text : String} (plain : text.toList.any isBrace = false) :
    parse text = .ok (flush text.toList.reverse []) := by
  rw [parse_eq_ok_iff, scan_plain [] plain, List.append_nil]

theorem eq_of_single? {parts : List Part} {p : Placeholder} (single : single? parts = some p) :
    parts = [.placeholder p] ∧ p.precision = none := by
  unfold single? at single
  split at single
  · split at single
    · next unformatted =>
      cases single
      exact ⟨rfl, Option.isNone_iff_eq_none.mp unformatted⟩
    · cases single
  · cases single

end Template

namespace Context

variable {context : Context} {apiKeyName : Option String} {scope : Scope}

theorem partsText_flush (read : List Char) :
    context.partsText apiKeyName scope (Template.flush read []) =
      .ok (String.ofList read.reverse) := by
  cases read with
  | nil => rfl
  | cons c rest =>
    simp [Template.flush, partsText, partText, bind, Except.bind, pure, Except.pure]

/-- Without decimal places a value is rendered as its text. -/
theorem render_of_no_precision {p : Placeholder} (unformatted : p.precision = none) (value : Value) :
    p.render value = .ok value.text := by
  obtain ⟨path, precision⟩ := p
  cases unformatted
  cases value <;> rfl

/-- The three ways to fill in a template make the same text of it. -/
theorem formatString_eq (template : String) :
    context.formatString apiKeyName scope template =
      (do context.partsText apiKeyName scope (← Template.parse template)) := by
  rw [formatString, formatTemplate]
  split
  · cases Template.parse template with
    | error error => rfl
    | ok parts =>
      cases single : Template.single? parts with
      | none =>
        simp only [bind, Except.bind, single]
        cases context.partsText apiKeyName scope parts <;> rfl
      | some p =>
        obtain ⟨rfl, unformatted⟩ := Template.eq_of_single? single
        simp only [bind, Except.bind, single, partsText, partText]
        cases context.resolve apiKeyName scope p with
        | error error => rfl
        | ok value =>
          simp [render_of_no_precision unformatted, Except.map, pure, Except.pure]
  · next plain =>
    have noBraces : template.toList.any Template.isBrace = false := by
      simpa [Template.isBrace] using plain
    rw [Template.parse_plain noBraces]
    change _ = context.partsText apiKeyName scope (Template.flush template.toList.reverse [])
    rw [partsText_flush, List.reverse_reverse, String.ofList_toList]
    rfl

/-! One template behind another. -/

/-- Two texts one behind the other; the first failure decides. -/
def followedBy (first second : Except StepError String) : Except StepError String := do
  let text ← first
  let more ← second
  return text ++ more

theorem partsText_consPart (part : Part) (parts : List Part) :
    context.partsText apiKeyName scope (Template.consPart part parts) =
      followedBy (context.partText apiKeyName scope part)
        (context.partsText apiKeyName scope parts) := by
  unfold Template.consPart
  split
  · next text more rest =>
    simp only [followedBy, partsText, partText, bind, Except.bind, pure, Except.pure]
    cases context.partsText apiKeyName scope rest with
    | error error => rfl
    | ok behind => simp [String.append_assoc]
  · rfl

theorem followedBy_assoc (first second third : Except StepError String) :
    followedBy (followedBy first second) third = followedBy first (followedBy second third) := by
  cases first with
  | error error => rfl
  | ok text =>
    cases second with
    | error error => rfl
    | ok more =>
      cases third with
      | error error => rfl
      | ok last => exact congrArg Except.ok (String.append_assoc)

theorem partsText_join (first second : List Part) :
    context.partsText apiKeyName scope (Template.join first second) =
      followedBy (context.partsText apiKeyName scope first)
        (context.partsText apiKeyName scope second) := by
  induction first with
  | nil =>
    change context.partsText apiKeyName scope second = _
    rw [partsText]
    cases context.partsText apiKeyName scope second with
    | error error => rfl
    | ok text => exact congrArg Except.ok String.empty_append.symm
  | cons part rest ih =>
    change context.partsText apiKeyName scope
      (Template.consPart part (Template.join rest second)) = _
    rw [partsText_consPart, ih, ← followedBy_assoc]
    rfl

/-- A template stands for the text of its first part followed by that of its second part, wherever it
is cut, and fails as the first of the two that fails. -/
theorem formatString_append (context : Context) (apiKeyName : Option String) (scope : Scope)
    {first second : String} {parts more : List Part}
    (firstParts : Template.parse first = .ok parts)
    (secondParts : Template.parse second = .ok more)
    (apart : second.toList.head? ≠ some '\x7d') :
    context.formatString apiKeyName scope (first ++ second) = (do
      let text ← context.formatString apiKeyName scope first
      let behind ← context.formatString apiKeyName scope second
      return text ++ behind) := by
  have whole := Template.parse_append firstParts secondParts apart
  calc
    context.formatString apiKeyName scope (first ++ second)
      = context.partsText apiKeyName scope (Template.join parts more) := by
        rw [formatString_eq, whole]
        rfl
    _ = followedBy (context.partsText apiKeyName scope parts)
          (context.partsText apiKeyName scope more) := partsText_join parts more
    _ = followedBy (context.formatString apiKeyName scope first)
          (context.formatString apiKeyName scope second) := by
        rw [formatString_eq, formatString_eq, firstParts, secondParts]
        rfl

/-- A city whose name looks like a template. -/
def bracedCity : Context where
  data := .object [("city", .string "\x7bsun\x7d")]
  config := JobConfig.named "news"
  runId := "11111111-2222-4333-8444-555555555555"

theorem formatString_append_bracedCity :
    (∃ parts, Template.parse "\x7bcity\x7d" = .ok parts) ∧
      (∃ more, Template.parse " and \x7bcity\x7d" = .ok more) ∧
      bracedCity.formatString none Scope.root ("\x7bcity\x7d" ++ " and \x7bcity\x7d") =
        .ok "\x7bsun\x7d and \x7bsun\x7d" := by
  refine ⟨⟨_, rfl⟩, ⟨_, rfl⟩, ?_⟩
  rw [formatString_append bracedCity none Scope.root rfl rfl (by decide)]
  rfl

end Context

end Newsreel
