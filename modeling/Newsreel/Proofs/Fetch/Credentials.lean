import Newsreel.Fetch.Run
import Newsreel.Proofs.Context.Credentials

/-!
What requests and fetches see of the credentials.

Only the templates of a fetch itself are filled in with the credential that it names. A nested fetch
has its own name or none, so what a fetch does depends on no credentials but those that it and the
fetches nested in it name.
-/

namespace Newsreel

variable {context : Context} {keys : List (String × String)} {apiKeyName : Option String}

/-! The fetches within a fetch. -/

mutual
/-- A fetch and all fetches nested in it, at any depth. -/
def FetchSpec.family : FetchSpec → List FetchSpec
  | .mk kind name apiKeyName variant => .mk kind name apiKeyName variant :: variant.nested

def FetchVariant.nested : FetchVariant → List FetchSpec
  | .request _ | .input _ | .multiple _ _ _ => []
  | .memory _ _ alternative => FetchSpec.familyOf? alternative
  | .multipleCustom requests _ => FetchSpec.familyOf requests

def FetchSpec.familyOf? : Option FetchSpec → List FetchSpec
  | none => []
  | some spec => spec.family

def FetchSpec.familyOf : List FetchSpec → List FetchSpec
  | [] => []
  | spec :: specs => spec.family ++ FetchSpec.familyOf specs
end

/-- The names of credentials that some fetches give as their own. -/
def FetchSpec.apiKeyNames (specs : List FetchSpec) : List String := specs.filterMap (·.apiKeyName)

theorem FetchSpec.apiKeyNames_append (specs more : List FetchSpec) :
    apiKeyNames (specs ++ more) = apiKeyNames specs ++ apiKeyNames more := List.filterMap_append

theorem FetchSpec.apiKeyNames_family (kind : FetchKind) (name : String)
    (apiKeyName : Option String) (variant : FetchVariant) :
    apiKeyNames (family (.mk kind name apiKeyName variant)) =
      apiKeyName.toList ++ apiKeyNames variant.nested := by
  cases apiKeyName <;> simp [family, apiKeyNames, FetchSpec.apiKeyName]

/-! Requests. -/

namespace RequestSpec

theorem formatPairs_withKeys (agree : context.config.AgreesOn keys apiKeyName.toList)
    (scope : Scope) (field : String) (value : Option Value) :
    formatPairs (context.withKeys keys) apiKeyName scope field value =
      formatPairs context apiKeyName scope field value := by
  cases value with
  | none => rfl
  | some value => simp only [formatPairs, Context.deepFormat_withKeys agree]

theorem buildBody_withKeys (agree : context.config.AgreesOn keys apiKeyName.toList)
    (spec : RequestSpec) (scope : Scope) :
    spec.buildBody (context.withKeys keys) apiKeyName scope =
      spec.buildBody context apiKeyName scope := by
  simp only [buildBody, Context.formatText_withKeys, Context.deepFormat_withKeys agree,
    Context.formatWithKey_withKeys agree]

end RequestSpec

namespace ParamsArray

theorem pieces_withKeys (agree : context.config.AgreesOn keys apiKeyName.toList)
    (array : ParamsArray) (iterations : List Iteration) :
    array.pieces (context.withKeys keys) apiKeyName iterations =
      array.pieces context apiKeyName iterations := by
  induction iterations with
  | nil => rfl
  | cons iteration rest ih => simp only [pieces, Context.formatString_withKeys agree, ih]

theorem extend_withKeys (agree : context.config.AgreesOn keys apiKeyName.toList) (scope : Scope)
    (params : List (String × String)) (arrays : List ParamsArray) :
    extend (context.withKeys keys) apiKeyName scope params arrays =
      extend context apiKeyName scope params arrays := by
  induction arrays generalizing params with
  | nil => rfl
  | cons array rest ih =>
    simp only [extend, join, Context.iterations_withKeys, pieces_withKeys agree, ih]

end ParamsArray

/-- A request is the same where the name of its credential stands for the same. -/
theorem RequestSpec.build_withKeys (agree : context.config.AgreesOn keys apiKeyName.toList)
    (spec : RequestSpec) (scope : Scope) :
    spec.build (context.withKeys keys) apiKeyName scope = spec.build context apiKeyName scope := by
  simp only [build, buildMethod, Context.formatText_withKeys, formatPairs_withKeys agree,
    buildBody_withKeys agree, Context.formatString_withKeys agree,
    ParamsArray.extend_withKeys agree]

/-! Fetches. -/

namespace Fetch

variable (surroundings : Surroundings)

theorem sendRequest_withKeys (agree : context.config.AgreesOn keys apiKeyName.toList)
    (scope : Scope) (spec : RequestSpec) :
    sendRequest surroundings (context.withKeys keys) apiKeyName scope spec =
      sendRequest surroundings context apiKeyName scope spec := by
  simp only [sendRequest, spec.build_withKeys agree]

theorem sendKeyed_withKeys (agree : context.config.AgreesOn keys apiKeyName.toList)
    (spec : RequestSpec) (gathered : Fields) (iterations : List Iteration) :
    sendKeyed surroundings (context.withKeys keys) apiKeyName spec gathered iterations =
      sendKeyed surroundings context apiKeyName spec gathered iterations := by
  induction iterations generalizing gathered with
  | nil => rfl
  | cons iteration rest ih => simp only [sendKeyed, sendRequest_withKeys surroundings agree, ih]

theorem sendMultiple_withKeys (agree : context.config.AgreesOn keys apiKeyName.toList)
    (scope : Scope) (spec : RequestSpec) (stepsValue useLoopAsKey : Value) :
    sendMultiple surroundings (context.withKeys keys) apiKeyName scope spec stepsValue useLoopAsKey =
      sendMultiple surroundings context apiKeyName scope spec stepsValue useLoopAsKey := by
  simp only [sendMultiple, Context.iterations_withKeys, Context.format_withKeys,
    sendKeyed_withKeys surroundings agree, sendRequest_withKeys surroundings agree]

/-- Fixtures lie where they lie whatever the credentials are. -/
theorem unlessTesting_withKeys (name : String) (work : Effect Value) :
    unlessTesting (context.withKeys keys) name work = unlessTesting context name work := rfl

mutual
/-- A fetch does the same where the names of its family stand for the same. -/
theorem run_withKeys (scope : Scope) : (spec : FetchSpec) →
    context.config.AgreesOn keys (FetchSpec.apiKeyNames spec.family) →
      run surroundings (context.withKeys keys) scope spec = run surroundings context scope spec
  | .mk kind name apiKeyName variant, agree => by
    rw [FetchSpec.apiKeyNames_family, JobConfig.agreesOn_append_iff] at agree
    rw [run, run, runVariant_withKeys scope name agree.1 variant agree.2]

theorem runVariant_withKeys (scope : Scope) (name : String) {apiKeyName : Option String}
    (own : context.config.AgreesOn keys apiKeyName.toList) : (variant : FetchVariant) →
    context.config.AgreesOn keys (FetchSpec.apiKeyNames variant.nested) →
      runVariant surroundings (context.withKeys keys) scope name apiKeyName variant =
        runVariant surroundings context scope name apiKeyName variant
  | .request request, _ => by
    simp only [runVariant, sendRequest_withKeys surroundings own, unlessTesting_withKeys]
  | .input input, _ => by simp only [runVariant, Context.deepFormat_withKeys own]
  | .memory useLast timedelta alternative, within => by
    funext world
    have read : remembered surroundings (context.withKeys keys).config name useLast timedelta =
      remembered surroundings context.config name useLast timedelta := rfl
    simp only [runVariant, read]
    split
    · rfl
    · rw [runAlternative_withKeys scope _ alternative within]
  | .multiple request stepsValue useLoopAsKey, _ => by
    simp only [runVariant, sendMultiple_withKeys surroundings own, unlessTesting_withKeys]
  | .multipleCustom requests (some templates), within => by
    simp only [runVariant, runKeyed_withKeys scope [] templates requests within,
      unlessTesting_withKeys]
  | .multipleCustom requests none, within => by
    simp only [runVariant, runAll_withKeys scope requests within, unlessTesting_withKeys]

theorem runAlternative_withKeys (scope : Scope) (miss : StepError) :
    (alternative : Option FetchSpec) →
    context.config.AgreesOn keys (FetchSpec.apiKeyNames (FetchSpec.familyOf? alternative)) →
      runAlternative surroundings (context.withKeys keys) scope miss alternative =
        runAlternative surroundings context scope miss alternative
  | none, _ => by simp only [runAlternative]
  | some alternative, within => by
    simp only [runAlternative, run_withKeys scope alternative within]

theorem runAll_withKeys (scope : Scope) : (specs : List FetchSpec) →
    context.config.AgreesOn keys (FetchSpec.apiKeyNames (FetchSpec.familyOf specs)) →
      runAll surroundings (context.withKeys keys) scope specs =
        runAll surroundings context scope specs
  | [], _ => by simp only [runAll]
  | spec :: specs, within => by
    rw [FetchSpec.familyOf, FetchSpec.apiKeyNames_append, JobConfig.agreesOn_append_iff] at within
    simp only [runAll, run_withKeys scope spec within.1, runAll_withKeys scope specs within.2]

theorem runKeyed_withKeys (scope : Scope) (gathered : Fields) :
    (templates : List Value) → (specs : List FetchSpec) →
    context.config.AgreesOn keys (FetchSpec.apiKeyNames (FetchSpec.familyOf specs)) →
      runKeyed surroundings (context.withKeys keys) scope gathered templates specs =
        runKeyed surroundings context scope gathered templates specs
  | template :: templates, spec :: specs, within => by
    rw [FetchSpec.familyOf, FetchSpec.apiKeyNames_append, JobConfig.agreesOn_append_iff] at within
    simp only [runKeyed, Context.formatText_withKeys, run_withKeys scope spec within.1,
      runKeyed_withKeys scope _ templates specs within.2]
  | [], _, _ => by simp only [runKeyed]
  | _ :: _, [], _ => by simp only [runKeyed]
end

end Fetch

end Newsreel
