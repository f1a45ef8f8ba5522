import Newsreel.Proofs.Context.Leaves
import Newsreel.Proofs.Fault

/-!
Numbers with too many decimal places.

A template may ask for any count of decimal places, but a number is written with a limited one only.
Beyond the limit filling in does not end with a report. This is known of templates and values from
their placeholders: the first part, or the first string, that cannot be filled in has to be a number
that is asked for too many places. Nothing else that is filled in ends without a report.
-/

namespace Newsreel

namespace Outcome

variable {α β : Type}

/-- The work ends without a value and without a report. -/
def Aborts (outcome : Except StepError α) : Prop :=
  ∃ error, outcome = .error error ∧ error.isAbort = true

theorem not_aborts_ok (a : α) : ¬Aborts (.ok a) := by
  rintro ⟨error, failed, -⟩
  cases failed

theorem LooksUp.not_aborts {outcome : Except StepError α} (looksUp : LooksUp outcome) :
    ¬Aborts outcome := by
  rintro ⟨error, failed, aborts⟩
  rw [StepError.isAbort_of_isLookup (looksUp error failed)] at aborts
  cases aborts

theorem aborts_bind_iff {first : Except StepError α} {next : α → Except StepError β} :
    Aborts (first >>= next) ↔ Aborts first ∨ ∃ a, first = .ok a ∧ Aborts (next a) := by
  cases first with
  | error error => simp [Aborts, bind, Except.bind]
  | ok a => simp [Aborts, bind, Except.bind]

theorem aborts_map_iff {outcome : Except StepError α} {f : α → β} :
    Aborts (outcome.map f) ↔ Aborts outcome := by
  cases outcome <;> simp [Aborts, Except.map]

theorem aborts_iff_failure? {outcome : Except StepError α} :
    Aborts outcome ↔ ∃ error, failure? outcome = some error ∧ error.isAbort = true := by
  simp only [Aborts, failure?_eq_some_iff]

end Outcome

open Outcome

namespace Placeholder

/-- The placeholder asks for more decimal places than can be written. -/
def AsksTooMuch (p : Placeholder) : Prop := ∃ places, p.precision = some places ∧ placesLimit < places

/-- Only a number is written with the places that are asked for. -/
theorem render_aborts_iff {p : Placeholder} {value : Value} :
    Aborts (p.render value) ↔ p.AsksTooMuch ∧ ∃ n, value = .number n := by
  unfold render
  split
  · next n places asked =>
    split
    · next tooMany => exact iff_of_true ⟨_, rfl, rfl⟩ ⟨⟨places, asked, tooMany⟩, n, rfl⟩
    · next enough =>
      refine iff_of_false (not_aborts_ok _) ?_
      rintro ⟨⟨more, alsoAsked, tooMany⟩, -⟩
      rw [asked, Option.some.injEq] at alsoAsked
      exact enough (alsoAsked ▸ tooMany)
  · next other =>
    refine iff_of_false (not_aborts_ok _) ?_
    rintro ⟨⟨places, asked, -⟩, n, rfl⟩
    exact other n places rfl asked

end Placeholder

namespace Context

variable {context : Context} {apiKeyName : Option String} {scope : Scope}

/-! Templates. -/

/-- The part is a number that is asked for too many places. -/
def Overflows (context : Context) (apiKeyName : Option String) (scope : Scope) : Part → Prop
  | .literal _ => False
  | .placeholder p => p.AsksTooMuch ∧ ∃ n, context.resolve apiKeyName scope p = .ok (.number n)

theorem partText_aborts_iff {part : Part} :
    Aborts (context.partText apiKeyName scope part) ↔
      context.Overflows apiKeyName scope part := by
  cases part with
  | literal text => exact iff_of_false (not_aborts_ok text) id
  | placeholder p =>
    have resolves := (context.resolve_looksUp scope apiKeyName p).not_aborts
    rw [partText, aborts_bind_iff, or_iff_right resolves]
    simp only [Placeholder.render_aborts_iff, Overflows]
    constructor
    · rintro ⟨value, found, tooMuch, n, rfl⟩
      exact ⟨tooMuch, n, found⟩
    · rintro ⟨tooMuch, n, found⟩
      exact ⟨_, found, tooMuch, n, rfl⟩

/-- Some part overflows, and all parts before it have their texts. -/
def OverflowsIn (context : Context) (apiKeyName : Option String) (scope : Scope)
    (parts : List Part) : Prop :=
  ∃ front part back, parts = front ++ part :: back ∧
    (∀ earlier ∈ front, ∃ text, context.partText apiKeyName scope earlier = .ok text) ∧
    context.Overflows apiKeyName scope part

theorem partsText_aborts_iff {parts : List Part} :
    Aborts (context.partsText apiKeyName scope parts) ↔
      context.OverflowsIn apiKeyName scope parts := by
  induction parts with
  | nil =>
    refine iff_of_false (not_aborts_ok "") ?_
    rintro ⟨front, part, back, impossible, -⟩
    exact absurd impossible.symm (List.append_ne_nil_of_right_ne_nil _ (List.cons_ne_nil _ _))
  | cons first rest ih =>
    have later (text : String) : Aborts (do
        let more ← context.partsText apiKeyName scope rest
        return text ++ more) ↔ context.OverflowsIn apiKeyName scope rest := by
      rw [aborts_bind_iff, ih]
      refine or_iff_left ?_
      rintro ⟨more, -, aborts⟩
      exact not_aborts_ok _ aborts
    rw [partsText, aborts_bind_iff, partText_aborts_iff]
    simp only [later]
    constructor
    · rintro (here | ⟨text, shown, front, part, back, rfl, earlier, there⟩)
      · exact ⟨[], first, rest, rfl, List.forall_mem_nil _, here⟩
      · refine ⟨first :: front, part, back, rfl, ?_, there⟩
        exact List.forall_mem_cons.mpr ⟨⟨text, shown⟩, earlier⟩
    · rintro ⟨front, part, back, split, earlier, there⟩
      cases front with
      | nil =>
        cases split
        exact Or.inl there
      | cons _ front =>
        cases split
        obtain ⟨⟨text, shown⟩, earlier⟩ := List.forall_mem_cons.mp earlier
        exact Or.inr ⟨text, shown, front, part, back, rfl, earlier, there⟩

theorem formatString_aborts_iff {template : String} :
    Aborts (context.formatString apiKeyName scope template) ↔
      ∃ parts, Template.parse template = .ok parts ∧
        context.OverflowsIn apiKeyName scope parts := by
  have parses := (Template.parse_looksUp template).not_aborts
  rw [formatString_eq, aborts_bind_iff, or_iff_right parses]
  simp only [partsText_aborts_iff]

theorem formatTemplate_aborts_iff {template : String} :
    Aborts (context.formatTemplate apiKeyName scope template) ↔
      Aborts (context.formatString apiKeyName scope template) :=
  aborts_map_iff.symm

/-- No placeholder of the text asks for more places than can be written. -/
def Writable (template : String) : Prop :=
  ∀ parts, Template.parse template = .ok parts → ∀ p, .placeholder p ∈ parts → ¬p.AsksTooMuch

theorem formatString_not_aborts {template : String} (writable : Writable template) :
    ¬Aborts (context.formatString apiKeyName scope template) := by
  rw [formatString_aborts_iff]
  rintro ⟨parts, parsed, front, part, back, rfl, -, overflows⟩
  cases part with
  | literal text => exact overflows
  | placeholder p => exact writable _ parsed p (by simp) overflows.1

/-! Values. -/

theorem formatWithKey_aborts_iff {value : Value} :
    Aborts (context.formatWithKey apiKeyName scope value) ↔
      ∃ template, value = .string template ∧
        Aborts (context.formatString apiKeyName scope template) := by
  cases value with
  | string template =>
    rw [formatWithKey, formatTemplate_aborts_iff]
    simp
  | _ => exact iff_of_false (not_aborts_ok _) (by simp)

theorem deepFormat_aborts_iff {value : Value} :
    Aborts (context.deepFormat apiKeyName scope value) ↔
      ∃ before text after, value.strings = before ++ text :: after ∧
        (∀ earlier ∈ before,
          ∃ filled, context.formatTemplate apiKeyName scope earlier = .ok filled) ∧
        Aborts (context.formatString apiKeyName scope text) := by
  constructor
  · intro aborts
    obtain ⟨error, failed, noReport⟩ := aborts_iff_failure?.mp aborts
    rw [failure?_deepFormat, List.findSome?_eq_some_iff] at failed
    obtain ⟨before, text, after, strings, fails, earlier⟩ := failed
    exact ⟨before, text, after, strings,
      fun other member => failure?_eq_none_iff.mp (earlier other member),
      formatTemplate_aborts_iff.mp (aborts_iff_failure?.mpr ⟨error, fails, noReport⟩)⟩
  · rintro ⟨before, text, after, strings, earlier, aborts⟩
    obtain ⟨error, fails, noReport⟩ :=
      aborts_iff_failure?.mp (formatTemplate_aborts_iff.mpr aborts)
    refine aborts_iff_failure?.mpr ⟨error, ?_, noReport⟩
    rw [failure?_deepFormat, List.findSome?_eq_some_iff]
    exact ⟨before, text, after, strings, fails,
      fun other member => failure?_eq_none_iff.mpr (earlier other member)⟩

/-- Filling in a template ends without a report exactly where its first part that cannot be filled in
is a number that is asked for more places than can be written, and filling in a value exactly where
its first string that cannot be filled in ends so. Texts and values whose placeholders ask for fewer
places always end with a value or a report. -/
theorem filling_aborts_iff (context : Context) (apiKeyName : Option String) (scope : Scope) :
    (∀ template, Aborts (context.formatString apiKeyName scope template) ↔
      ∃ parts, Template.parse template = .ok parts ∧
        context.OverflowsIn apiKeyName scope parts) ∧
    (∀ value, Aborts (context.formatWithKey apiKeyName scope value) ↔
      ∃ template, value = .string template ∧
        Aborts (context.formatString apiKeyName scope template)) ∧
    (∀ value, Aborts (context.deepFormat apiKeyName scope value) ↔
      ∃ before text after, value.strings = before ++ text :: after ∧
        (∀ earlier ∈ before,
          ∃ filled, context.formatTemplate apiKeyName scope earlier = .ok filled) ∧
        Aborts (context.formatString apiKeyName scope text)) ∧
    (∀ template, Writable template →
      ¬Aborts (context.formatString apiKeyName scope template)) ∧
    ∀ value : Value, (∀ text ∈ value.strings, Writable text) →
      ¬Aborts (context.formatWithKey apiKeyName scope value) ∧
        ¬Aborts (context.deepFormat apiKeyName scope value) := by
  refine ⟨fun _ => formatString_aborts_iff, fun _ => formatWithKey_aborts_iff,
    fun _ => deepFormat_aborts_iff, fun _ => formatString_not_aborts,
    fun value writable => ⟨?_, ?_⟩⟩
  · rw [formatWithKey_aborts_iff]
    rintro ⟨template, rfl, aborts⟩
    exact formatString_not_aborts (writable template List.mem_cons_self) aborts
  · rw [deepFormat_aborts_iff]
    rintro ⟨before, text, after, strings, -, aborts⟩
    exact formatString_not_aborts (writable text (by simp [strings])) aborts

/-- A single number. -/
def oneDegree : Context where
  data := .object [("degree", .number (.int 1))]
  config := JobConfig.named "news"
  runId := "11111111-2222-4333-8444-555555555555"

/-- A template that is read without a fault, and one place more than can be written. -/
theorem oneDegree_aborts :
    Template.parse "{degree:.65536}" = .ok [.placeholder ⟨"degree", some 65536⟩] ∧
      Aborts (oneDegree.format Scope.root (.string "{degree:.65536}")) ∧
      Aborts (oneDegree.formatString none Scope.root "{degree:.65536}") ∧
      Aborts (oneDegree.deepFormat none Scope.root
        (.array [.string "{degree:.65536}"])) := by
  refine ⟨?_, ⟨.unwritable 65536, ?_, rfl⟩, ⟨.unwritable 65536, ?_, rfl⟩,
    ⟨.unwritable 65536, ?_, rfl⟩⟩
  all_goals rfl

end Context

end Newsreel
