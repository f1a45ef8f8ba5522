import Newsreel.Proofs.Fetch.Credentials

/-!
Which failures tell what a request was filled in with.

A refusal quotes the address of the request, and headers or parameters that are no mapping are
quoted as they came out. Besides, the text of a request is checked before it is sent, so whether
such a check fails may depend on what was filled in. All other failures are the same whatever the
credentials stand for, as long as the same names stand for something.
-/

namespace Newsreel

/-! Failures. -/

/-- The fault without the value that it quotes where a mapping was wanted. -/
def ValueFault.veiled : ValueFault → ValueFault
  | .notAMapping _ => .notAMapping ""
  | fault => fault

namespace StepError

/-- The failure without what it quotes of a request. -/
def veiled : StepError → StepError
  | .fetch kind name source => .fetch kind name source.veiled
  | .refused _ status body => .refused "" status body
  | .invalidValue field fault => .invalidValue field fault.veiled
  | error => error

/-- The text of a request, be it its address, a header or its body, cannot be sent. -/
def isUnsendable (error : StepError) : Bool := match error.root with
  | .web .builder => true
  | .invalidValue _ .notAscii => true
  | .invalidValue _ (.notLatin1 _) => true
  | _ => false

/-- The failures of two runs: alike but for what they quote, unless a text cannot be sent. Where
nothing quoted depends on a credential they are the same. -/
def Matches (discreet : Prop) (error other : StepError) : Prop :=
  error.isUnsendable = true ∨ other.isUnsendable = true ∨
    (error.veiled = other.veiled ∧ (discreet → error = other))

variable {discreet : Prop}

theorem matches_refl (error : StepError) : error.Matches discreet error :=
  Or.inr (Or.inr ⟨rfl, fun _ => rfl⟩)

theorem Matches.fetch {error other : StepError} (matching : error.Matches discreet other)
    (kind : FetchKind) (name : String) :
    Matches discreet (.fetch kind name error) (.fetch kind name other) := by
  rcases matching with unsendable | unsendable | ⟨same, equal⟩
  · exact Or.inl unsendable
  · exact Or.inr (Or.inl unsendable)
  · exact Or.inr (Or.inr ⟨congrArg (StepError.fetch kind name) same,
      fun holds => congrArg (StepError.fetch kind name) (equal holds)⟩)

end StepError

/-! Outcomes. -/

namespace Outcome

variable {α β γ δ : Type} {discreet : Prop} {related : α → β → Prop} {later : γ → δ → Prop}

/-- The outcomes of two runs: both good and related, or failures that match. One run alone fails
only where a text cannot be sent. -/
inductive Matches (discreet : Prop) (related : α → β → Prop) :
    Except StepError α → Except StepError β → Prop where
  | ok {a : α} {b : β} (same : related a b) : Matches discreet related (.ok a) (.ok b)
  | errors {error other : StepError} (same : error.Matches discreet other) :
      Matches discreet related (.error error) (.error other)
  | first {error : StepError} {b : β} (unsendable : error.isUnsendable = true) :
      Matches discreet related (.error error) (.ok b)
  | second {a : α} {error : StepError} (unsendable : error.isUnsendable = true) :
      Matches discreet related (.ok a) (.error error)

theorem matches_error (related : α → β → Prop) (error : StepError) :
    Matches discreet related (.error error) (.error error) :=
  .errors (StepError.matches_refl error)

theorem matches_refl {related : α → α → Prop} (outcome : Except StepError α)
    (refl : ∀ a, related a a) : Matches discreet related outcome outcome := by
  cases outcome with
  | error error => exact matches_error related error
  | ok a => exact .ok (refl a)

theorem matches_of_eq {outcome other : Except StepError α} (same : outcome = other) :
    Matches discreet (fun a b => a = b) outcome other := by
  rw [same]
  exact matches_refl other fun _ => rfl

/-- Outcomes of checks of a text that is to be sent. -/
theorem matches_of_unsendable {first : Except StepError α} {second : Except StepError β}
    (firstFails : ∀ error, first = .error error → error.isUnsendable = true)
    (secondFails : ∀ error, second = .error error → error.isUnsendable = true) :
    Matches discreet (fun _ _ => True) first second := by
  cases first with
  | error error => cases second with
    | error other => exact .errors (Or.inl (firstFails error rfl))
    | ok b => exact .first (firstFails error rfl)
  | ok a => cases second with
    | error other => exact .second (secondFails other rfl)
    | ok b => exact .ok trivial

theorem Matches.imp {weaker : α → β → Prop} {first : Except StepError α}
    {second : Except StepError β} (matching : Matches discreet related first second)
    (implies : ∀ a b, related a b → weaker a b) : Matches discreet weaker first second := by
  cases matching with
  | ok same => exact .ok (implies _ _ same)
  | errors same => exact .errors same
  | first unsendable => exact .first unsendable
  | second unsendable => exact .second unsendable

theorem Matches.and_eq {related : α → α → Prop} {first second : Except StepError α}
    (matching : Matches discreet related first second) (equal : discreet → first = second) :
    Matches discreet (fun a b => related a b ∧ (discreet → a = b)) first second := by
  cases matching with
  | ok same => exact .ok ⟨same, fun holds => Except.ok.inj (equal holds)⟩
  | errors same => exact .errors same
  | first unsendable => exact .first unsendable
  | second unsendable => exact .second unsendable

theorem Matches.bind {first : Except StepError α} {second : Except StepError β}
    {next : α → Except StepError γ} {other : β → Except StepError δ}
    (matching : Matches discreet related first second)
    (continues : ∀ a b, related a b → Matches discreet later (next a) (other b)) :
    Matches discreet later (first >>= next) (second >>= other) := by
  cases matching with
  | ok same => exact continues _ _ same
  | errors same => exact .errors same
  | @first error b unsendable =>
    change Matches discreet later (.error error) (other b)
    cases other b with
    | error _ => exact .errors (Or.inl unsendable)
    | ok _ => exact .first unsendable
  | @second a error unsendable =>
    change Matches discreet later (next a) (.error error)
    cases next a with
    | error _ => exact .errors (Or.inr (Or.inl unsendable))
    | ok _ => exact .second unsendable

theorem Matches.map {first : Except StepError α} {second : Except StepError β} {f : α → γ}
    {g : β → δ} (matching : Matches discreet (fun a b => later (f a) (g b)) first second) :
    Matches discreet later (first.map f) (second.map g) := by
  cases matching with
  | ok same => exact .ok same
  | errors same => exact .errors same
  | first unsendable => exact .first unsendable
  | second unsendable => exact .second unsendable

end Outcome

/-- Other credentials under the same names. -/
def JobConfig.SameKeyNames (config : JobConfig) (keys : List (String × String)) : Prop :=
  ∀ name, ((config.withKeys keys).apiKey? name).isSome = (config.apiKey? name).isSome

/-- No placeholder of the template stands for the credential. -/
def Template.Keyless (template : String) : Prop :=
  ∀ placeholder ∈ Template.placeholders template, placeholder.path ≠ apiKeyPath

/-! Templates. -/

namespace Context

variable {context : Context} {keys : List (String × String)} {discreet : Prop}

/-- A template without a placeholder for the credential does not see it. -/
theorem formatTemplate_keyless {template : String} (keyless : Template.Keyless template)
    (apiKeyName : Option String) (scope : Scope) :
    (context.withKeys keys).formatTemplate apiKeyName scope template =
      context.formatTemplate apiKeyName scope template :=
  formatTemplate_congr fun placeholder member => by
    simp only [resolve, keyless placeholder member, if_false, get_withKeys]

section SameKeyNames

variable (present : context.config.SameKeyNames keys) (apiKeyName : Option String)

include present

theorem resolve_matches (scope : Scope) (placeholder : Placeholder) :
    Outcome.Matches discreet (fun a b => a = b ∨ ∃ s t, a = .string s ∧ b = .string t)
      (context.resolve apiKeyName scope placeholder)
      ((context.withKeys keys).resolve apiKeyName scope placeholder) := by
  by_cases key : placeholder.path = apiKeyPath
  · cases apiKeyName with
    | none =>
      simp only [resolve, key, if_true]
      exact Outcome.matches_error _ _
    | some name =>
      have alike := present name
      simp only [resolve, key, if_true, withKeys_config]
      cases here : context.config.apiKey? name with
      | none =>
        rw [here, Option.isSome_none, Option.isSome_eq_false_iff, Option.isNone_iff_eq_none] at alike
        rw [alike]
        exact Outcome.matches_error _ _
      | some s =>
        rw [here, Option.isSome_some, Option.isSome_iff_exists] at alike
        obtain ⟨t, there⟩ := alike
        rw [there]
        exact .ok (Or.inr ⟨s, t, rfl, rfl⟩)
  · simp only [resolve, key, if_false, get_withKeys]
    exact Outcome.matches_refl _ fun _ => Or.inl rfl

theorem partText_matches (scope : Scope) (part : Part) :
    Outcome.Matches discreet (fun _ _ => True) (context.partText apiKeyName scope part)
      ((context.withKeys keys).partText apiKeyName scope part) := by
  cases part with
  | literal text => exact .ok trivial
  | placeholder p =>
    refine (resolve_matches present apiKeyName scope p).bind fun a b related => ?_
    rcases related with rfl | ⟨s, t, rfl, rfl⟩
    · exact Outcome.matches_refl _ fun _ => trivial
    · exact .ok trivial

theorem partsText_matches (scope : Scope) (parts : List Part) :
    Outcome.Matches discreet (fun _ _ => True) (context.partsText apiKeyName scope parts)
      ((context.withKeys keys).partsText apiKeyName scope parts) := by
  induction parts with
  | nil => exact .ok trivial
  | cons part rest ih =>
    exact (partText_matches present apiKeyName scope part).bind fun _ _ _ =>
      ih.bind fun _ _ _ => .ok trivial

/-- A template stands for values of one kind whatever the credential is. -/
theorem formatTemplate_matches (scope : Scope) (template : String) :
    Outcome.Matches discreet (fun a b => a.kindText = b.kindText)
      (context.formatTemplate apiKeyName scope template)
      ((context.withKeys keys).formatTemplate apiKeyName scope template) := by
  rw [formatTemplate, formatTemplate]
  split
  · refine (Outcome.matches_of_eq rfl).bind fun parts _ same => ?_
    subst same
    cases Template.single? parts with
    | none =>
      exact (partsText_matches present apiKeyName scope parts).bind fun _ _ _ => .ok rfl
    | some placeholder =>
      refine (resolve_matches present apiKeyName scope placeholder).imp fun a b related => ?_
      rcases related with rfl | ⟨s, t, rfl, rfl⟩
      · rfl
      · rfl
  · exact .ok rfl

theorem formatWithKey_matches (scope : Scope) (value : Value) :
    Outcome.Matches discreet (fun a b => a.kindText = b.kindText)
      (context.formatWithKey apiKeyName scope value)
      ((context.withKeys keys).formatWithKey apiKeyName scope value) := by
  cases value with
  | string template => exact formatTemplate_matches present apiKeyName scope template
  | _ => exact .ok rfl

theorem formatString_matches (scope : Scope) (template : String) :
    Outcome.Matches discreet (fun _ _ => True) (context.formatString apiKeyName scope template)
      ((context.withKeys keys).formatString apiKeyName scope template) :=
  ((formatTemplate_matches present apiKeyName scope template).imp fun _ _ _ => trivial).map

end SameKeyNames

mutual
/-- A value is filled in to values of one kind whatever the credential is. -/
theorem deepFormat_matches (present : context.config.SameKeyNames keys)
    (apiKeyName : Option String) (scope : Scope) : (value : Value) →
    Outcome.Matches discreet (fun a b => a.kindText = b.kindText)
      (context.deepFormat apiKeyName scope value)
      ((context.withKeys keys).deepFormat apiKeyName scope value)
  | .null | .bool _ | .number _ => by
    rw [deepFormat, deepFormat]
    exact .ok rfl
  | .string template => by
    rw [deepFormat, deepFormat]
    exact formatTemplate_matches present apiKeyName scope template
  | .array items => by
    rw [deepFormat, deepFormat]
    exact (deepFormatItems_matches present apiKeyName scope items).bind fun _ _ _ => .ok rfl
  | .object fields => by
    rw [deepFormat, deepFormat]
    exact (deepFormatFields_matches present apiKeyName scope fields).bind fun _ _ _ => .ok rfl

theorem deepFormatItems_matches (present : context.config.SameKeyNames keys)
    (apiKeyName : Option String) (scope : Scope) : (items : List Value) →
    Outcome.Matches discreet (fun _ _ => True) (context.deepFormatItems apiKeyName scope items)
      ((context.withKeys keys).deepFormatItems apiKeyName scope items)
  | [] => by
    rw [deepFormatItems, deepFormatItems]
    exact .ok trivial
  | item :: items => by
    rw [deepFormatItems, deepFormatItems]
    exact (deepFormat_matches present apiKeyName scope item).bind fun _ _ _ =>
      (deepFormatItems_matches present apiKeyName scope items).bind fun _ _ _ => .ok trivial

theorem deepFormatFields_matches (present : context.config.SameKeyNames keys)
    (apiKeyName : Option String) (scope : Scope) : (fields : List (String × Value)) →
    Outcome.Matches discreet (fun _ _ => True) (context.deepFormatFields apiKeyName scope fields)
      ((context.withKeys keys).deepFormatFields apiKeyName scope fields)
  | [] => by
    rw [deepFormatFields, deepFormatFields]
    exact .ok trivial
  | (name, value) :: fields => by
    rw [deepFormatFields, deepFormatFields]
    exact (deepFormat_matches present apiKeyName scope value).bind fun _ _ _ =>
      (deepFormatFields_matches present apiKeyName scope fields).bind fun _ _ _ => .ok trivial
end

end Context

/-! Requests. -/

/-- Given as headers or as parameters, the value is quoted without a credential if at all: a mapping
is not quoted, and other values see none. -/
def Value.Discreet : Value → Prop
  | .string template => Template.Keyless template
  | .array _ => False
  | _ => True

/-- Neither the address nor headers or parameters that may be quoted see the credential. -/
structure RequestSpec.Discreet (spec : RequestSpec) : Prop where
  url : Template.Keyless spec.urlPattern
  headers : ∀ value ∈ spec.headers, value.Discreet
  params : ∀ value ∈ spec.params, value.Discreet

/-- Requests that a refusal does not tell apart, and whose answers are read alike. -/
structure Request.Matches (discreet : Prop) (request other : Request) : Prop where
  responseFormat : request.responseFormat = other.responseFormat
  includeHeaders : request.includeHeaders = other.includeHeaders
  url : discreet → request.url = other.url

namespace RequestSpec

variable {context : Context} {keys : List (String × String)} {discreet : Prop}

/-- Headers or parameters as they come out. -/
theorem deepFormat_quoted (present : context.config.SameKeyNames keys)
    (apiKeyName : Option String) (scope : Scope) (value : Value)
    (silent : discreet → value.Discreet) :
    Outcome.Matches discreet
      (fun a b => a.kindText = b.kindText ∧ (discreet → a.isObject = false → a = b))
      (context.deepFormat apiKeyName scope value)
      ((context.withKeys keys).deepFormat apiKeyName scope value) := by
  have matching : Outcome.Matches discreet (fun a b : Value => a.kindText = b.kindText) _ _ :=
    Context.deepFormat_matches present apiKeyName scope value
  have weaken : ∀ a b : Value, (a.kindText = b.kindText ∧ (discreet → a = b)) →
      a.kindText = b.kindText ∧ (discreet → a.isObject = false → a = b) :=
    fun a b related => ⟨related.1, fun holds _ => related.2 holds⟩
  cases value with
  | object fields =>
    rw [Context.deepFormat, Context.deepFormat]
    exact (Context.deepFormatFields_matches present apiKeyName scope fields).bind fun _ _ _ =>
      .ok ⟨rfl, fun _ impossible => by cases impossible⟩
  | array items => exact (matching.and_eq fun holds => (silent holds).elim).imp weaken
  | string template =>
    refine (matching.and_eq fun holds => ?_).imp weaken
    rw [Context.deepFormat, Context.deepFormat,
      Context.formatTemplate_keyless (silent holds) apiKeyName scope]
  | null | bool _ | number _ =>
    refine (matching.and_eq fun _ => ?_).imp weaken
    rw [Context.deepFormat, Context.deepFormat]

/-- What is no mapping is refused as it came out. -/
theorem pairs_matches (field : String) {value other : Value}
    (kind : value.kindText = other.kindText)
    (equal : discreet → value.isObject = false → value = other) :
    Outcome.Matches discreet (fun _ _ => True) (pairs field value) (pairs field other) := by
  have refused (first second : Value) (same : discreet → first = second) :
      Outcome.Matches discreet (fun _ _ : List (String × String) => True)
        (.error (.invalidValue field (.notAMapping (Json.compact first))))
        (.error (.invalidValue field (.notAMapping (Json.compact second)))) :=
    .errors (Or.inr (Or.inr ⟨rfl, fun holds => by rw [same holds]⟩))
  cases value with
  | object fields => cases other with
    | object others => exact .ok trivial
    | _ => simp [Value.kindText] at kind
  | null => cases other with
    | null => exact .ok trivial
    | _ => simp [Value.kindText] at kind
  | bool b => cases other with
    | bool c => exact refused _ _ fun holds => equal holds rfl
    | _ => simp [Value.kindText] at kind
  | number n => cases other with
    | number m => exact refused _ _ fun holds => equal holds rfl
    | _ => simp [Value.kindText] at kind
  | string s => cases other with
    | string t => exact refused _ _ fun holds => equal holds rfl
    | _ => simp [Value.kindText] at kind
  | array items => cases other with
    | array others => exact refused _ _ fun holds => equal holds rfl
    | _ => simp [Value.kindText] at kind

theorem formatPairs_matches (present : context.config.SameKeyNames keys)
    (apiKeyName : Option String) (scope : Scope) (field : String) (value : Option Value)
    (silent : discreet → ∀ given ∈ value, given.Discreet) :
    Outcome.Matches discreet (fun _ _ => True) (formatPairs context apiKeyName scope field value)
      (formatPairs (context.withKeys keys) apiKeyName scope field value) := by
  cases value with
  | none => exact .ok trivial
  | some value =>
    have quoted := deepFormat_quoted present apiKeyName scope value fun holds =>
      silent holds value rfl
    exact quoted.bind fun a b related => pairs_matches field related.1 related.2

/-- A character that an encoding does not have is a fault of the text. -/
theorem encode_matches (label text other : String) :
    Outcome.Matches discreet (fun _ _ => True) (Web.encode text label) (Web.encode other label) := by
  rw [Web.encode, Web.encode]
  cases Web.Charset.ofLabel? label with
  | none => exact Outcome.matches_error _ _
  | some charset =>
    have unsendable (text : String) (error : StepError) (failed :
        (charset.encode text).mapError (StepError.invalidValue "body_encoding") = .error error) :
        error.isUnsendable = true := by
      cases charset with
      | utf8 => cases failed
      | ascii =>
        rw [Web.Charset.encode] at failed
        split at failed
        · cases failed
        · cases failed
          rfl
      | latin1 =>
        rw [Web.Charset.encode] at failed
        cases read : Web.Charset.latin1Bytes text.toList with
        | ok bytes =>
          rw [read] at failed
          cases failed
        | error c =>
          rw [read] at failed
          cases failed
          rfl
    exact Outcome.matches_of_unsendable (unsendable text) (unsendable other)

theorem buildBody_matches (present : context.config.SameKeyNames keys)
    (apiKeyName : Option String) (scope : Scope) (spec : RequestSpec) :
    Outcome.Matches discreet (fun _ _ => True) (spec.buildBody context apiKeyName scope)
      (spec.buildBody (context.withKeys keys) apiKeyName scope) := by
  rw [buildBody, buildBody, Context.formatText_withKeys]
  refine (Outcome.matches_of_eq rfl).bind fun type _ same => ?_
  subst same
  cases spec.body with
  | none => exact .ok trivial
  | some body =>
    dsimp only
    split
    · exact (Context.deepFormat_matches present apiKeyName scope body).bind fun _ _ _ => .ok trivial
    · refine (Context.formatWithKey_matches present apiKeyName scope body).bind fun a b _ => ?_
      cases spec.bodyEncoding with
      | none => exact .ok trivial
      | some label =>
        exact (encode_matches label a.text b.text).bind fun _ _ _ => .ok trivial

end RequestSpec

namespace ParamsArray

variable {context : Context} {keys : List (String × String)} {discreet : Prop}

theorem pieces_matches (present : context.config.SameKeyNames keys) (apiKeyName : Option String)
    (array : ParamsArray) (iterations : List Iteration) :
    Outcome.Matches discreet (fun _ _ => True) (array.pieces context apiKeyName iterations)
      (array.pieces (context.withKeys keys) apiKeyName iterations) := by
  induction iterations with
  | nil => exact .ok trivial
  | cons iteration rest ih =>
    exact (Context.formatString_matches present apiKeyName iteration.scope array.pattern).bind
      fun _ _ _ => (Context.formatString_matches present apiKeyName iteration.scope
        array.delimiter).bind fun _ _ _ => ih.bind fun _ _ _ => .ok trivial

theorem extend_matches (present : context.config.SameKeyNames keys) (apiKeyName : Option String)
    (scope : Scope) (params others : List (String × String)) (arrays : List ParamsArray) :
    Outcome.Matches discreet (fun _ _ => True) (extend context apiKeyName scope params arrays)
      (extend (context.withKeys keys) apiKeyName scope others arrays) := by
  induction arrays generalizing params others with
  | nil => exact .ok trivial
  | cons array rest ih =>
    have joined : Outcome.Matches discreet (fun _ _ => True)
        (array.join context apiKeyName scope)
        (array.join (context.withKeys keys) apiKeyName scope) := by
      rw [join, join, Context.iterations_withKeys]
      refine (Outcome.matches_of_eq rfl).bind fun iterations _ same => ?_
      subst same
      exact (pieces_matches present apiKeyName array iterations).bind fun _ _ _ => .ok trivial
    rw [extend, extend]
    exact joined.bind fun _ _ _ => ih _ _

end ParamsArray

theorem RequestSpec.build_matches {context : Context} {keys : List (String × String)}
    {discreet : Prop} (present : context.config.SameKeyNames keys) (apiKeyName : Option String)
    (scope : Scope) (spec : RequestSpec) (silent : discreet → spec.Discreet) :
    Outcome.Matches discreet (Request.Matches discreet) (spec.build context apiKeyName scope)
      (spec.build (context.withKeys keys) apiKeyName scope) := by
  have address : Outcome.Matches discreet (fun url other => discreet → url = other)
      (context.formatString apiKeyName scope spec.urlPattern)
      ((context.withKeys keys).formatString apiKeyName scope spec.urlPattern) := by
    refine ((Context.formatString_matches present apiKeyName scope spec.urlPattern).and_eq
      fun holds => ?_).imp fun _ _ related => related.2
    rw [Context.formatString, Context.formatString,
      Context.formatTemplate_keyless (silent holds).url apiKeyName scope]
  have method : spec.buildMethod (context.withKeys keys) scope = spec.buildMethod context scope := by
    simp only [buildMethod, Context.formatText_withKeys]
  rw [build, build, method, Context.formatText_withKeys]
  refine (Outcome.matches_of_eq rfl).bind fun _ _ _ => ?_
  refine (formatPairs_matches present apiKeyName scope "headers" spec.headers
    fun holds => (silent holds).headers).bind fun _ _ _ => ?_
  refine (buildBody_matches present apiKeyName scope spec).bind fun _ _ _ => ?_
  refine address.bind fun url other sameUrl => ?_
  refine (formatPairs_matches present apiKeyName scope "params" spec.params
    fun holds => (silent holds).params).bind fun given others _ => ?_
  refine (ParamsArray.extend_matches present apiKeyName scope given others
    spec.paramsArray).bind fun _ _ _ => ?_
  refine (Outcome.matches_of_eq rfl).bind fun format _ same => ?_
  subst same
  exact .ok ⟨rfl, rfl, sameUrl⟩

end Newsreel
