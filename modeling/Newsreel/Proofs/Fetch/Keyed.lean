import Newsreel.Proofs.Context.Proper
import Newsreel.Proofs.Json.Printer
import Newsreel.Proofs.Run.Testing

/-!
Responses kept by key.

A fetch that keeps its responses by key writes each of them under the text of a value: the item of
the loop, or what a template is filled in with. Two values have one text only where one of them is a
string that spells out the other; apart from that, no response takes the place of another.
-/

namespace Newsreel.Fetch

variable {surroundings : Surroundings} {context : Context} {scope : Scope}
  {apiKeyName : Option String} {world after : World}

/-- Works done one after the other, each with what it gives. -/
inductive Gives : List (Effect Value) → World → List Value → World → Prop
  | nothing {world : World} : Gives [] world [] world
  | next {work : Effect Value} {works : List (Effect Value)} {world between after : World}
      {value : Value} {values : List Value} (done : work world = (.ok value, between))
      (others : Gives works between values after) :
      Gives (work :: works) world (value :: values) after

theorem Gives.length_eq {works : List (Effect Value)} {values : List Value}
    (gives : Gives works world values after) : values.length = works.length := by
  induction gives with
  | nothing => rfl
  | next done others ih => rw [List.length_cons, List.length_cons, ih]

/-- Values written one after the other under names. -/
def written (gathered : Fields) (names : List String) (values : List Value) : Fields :=
  (names.zip values).foldl (fun fields entry => Fields.insert entry.1 entry.2 fields) gathered

theorem sendKeyed_ok {request : RequestSpec} {iterations : List Iteration} {gathered fields : Fields}
    (success : sendKeyed surroundings context apiKeyName request gathered iterations world =
      (.ok fields, after)) :
    ∃ responses, Gives (iterations.map fun iteration =>
        sendRequest surroundings context apiKeyName iteration.scope request) world responses after ∧
      fields = written gathered (iterations.map (·.item.text)) responses := by
  induction iterations generalizing gathered world with
  | nil =>
    obtain ⟨rfl, rfl⟩ := Attempt.pure_ok_iff.mp success
    exact ⟨[], .nothing, rfl⟩
  | cons iteration iterations ih =>
    obtain ⟨response, between, sent, success⟩ := Attempt.bind_ok_iff.mp success
    obtain ⟨responses, gives, rfl⟩ := ih success
    exact ⟨response :: responses, .next sent gives, rfl⟩

/-- Where there is a key for each request, every key is filled in and every request is run. -/
theorem runKeyed_pairs {templates : List Value} {requests : List FetchSpec}
    {gathered fields : Fields} (matched : templates.length = requests.length)
    (success : runKeyed surroundings context scope gathered templates requests world =
      (.ok fields, after)) :
    ∃ texts responses,
      List.Forall₂ (fun template text => context.formatText scope template = .ok text) templates
        texts ∧
      Gives (requests.map (run surroundings context scope)) world responses after ∧
      fields = written gathered texts responses := by
  induction templates generalizing requests gathered world with
  | nil =>
    cases requests with
    | nil =>
      have success : (pure gathered : Effect Fields) world = (.ok fields, after) := by
        simpa only [runKeyed] using success
      obtain ⟨rfl, rfl⟩ := Attempt.pure_ok_iff.mp success
      exact ⟨[], [], .nil, .nothing, rfl⟩
    | cons request requests => cases matched
  | cons template templates ih =>
    cases requests with
    | nil => cases matched
    | cons request requests =>
      rw [runKeyed] at success
      -- Filling in a key leaves the world alone, so only the fetches follow on each other.
      obtain ⟨text, between, found, success⟩ := Attempt.bind_ok_iff.mp success
      obtain ⟨filled, rfl⟩ := Attempt.ofExcept_ok_iff.mp found
      obtain ⟨response, later, ran, success⟩ := Attempt.bind_ok_iff.mp success
      obtain ⟨texts, responses, others, gives, rfl⟩ := ih (Nat.succ.inj matched) success
      exact ⟨text :: texts, response :: responses, .cons filled others, .next ran gives, rfl⟩

/-- Run outside testing mode, a fetch with a key for each request leaves out none of them. -/
theorem run_custom_ok {kind : FetchKind} {name : String} {templates : List Value}
    {requests : List FetchSpec} {result : Value} (matched : templates.length = requests.length)
    (live : context.config.testing = false)
    (success : run surroundings context scope
      (.mk kind name apiKeyName (.multipleCustom requests (some templates))) world =
        (.ok result, after)) :
    ∃ texts responses,
      List.Forall₂ (fun template text => context.formatText scope template = .ok text) templates
        texts ∧
      Gives (requests.map (run surroundings context scope)) world responses after ∧
      result = .object (written [] texts responses) := by
  rw [run, Attempt.annotate_ok_iff, runVariant, unlessTesting, if_neg (by simp [live])] at success
  obtain ⟨fields, later, ran, success⟩ := Attempt.bind_ok_iff.mp success
  obtain ⟨rfl, rfl⟩ := Attempt.pure_ok_iff.mp success
  obtain ⟨texts, responses, filled, gives, rfl⟩ := runKeyed_pairs matched ran
  exact ⟨texts, responses, filled, gives, rfl⟩

/-- The texts of the keys are those of the values that the keys are filled in with. -/
theorem texts_of_filled {templates values : List Value} {texts : List String}
    (filled : List.Forall₂ (fun template value => context.format scope template = .ok value)
      templates values)
    (found : List.Forall₂ (fun template text => context.formatText scope template = .ok text)
      templates texts) : texts = values.map Value.text := by
  have unique : Relator.RightUnique fun template text =>
      context.formatText scope template = .ok text :=
    fun _ _ _ one two => Except.ok.inj (one.symm.trans two)
  refine unique.forall₂ found (List.forall₂_map_right_iff.mpr ?_)
  refine filled.imp fun template value here => ?_
  rw [Context.formatText, here]
  rfl

/-- A fetch that keeps its responses by key: the values that its keys are made of, and the work that
fetches the response of each. -/
inductive Keyed (surroundings : Surroundings) (context : Context) (scope : Scope)
    (apiKeyName : Option String) : FetchVariant → List Value → List (Effect Value) → Prop
  | multiple {request : RequestSpec} {stepsValue useLoopAsKey keyed : Value}
      {iterations : List Iteration} (proper : stepsValue.Proper)
      (begun : context.iterations stepsValue FetchKind.multiple.name scope = .ok iterations)
      (asked : context.format scope useLoopAsKey = .ok keyed) (truthy : keyed.isTruthy = true) :
      Keyed surroundings context scope apiKeyName (.multiple request stepsValue useLoopAsKey)
        (iterations.map (·.item)) (iterations.map fun iteration =>
          sendRequest surroundings context apiKeyName iteration.scope request)
  | custom {requests : List FetchSpec} {templates values : List Value}
      (proper : ∀ template ∈ templates, template.Proper)
      (filled : List.Forall₂ (fun template value => context.format scope template = .ok value)
        templates values)
      (matched : templates.length = requests.length) :
      Keyed surroundings context scope apiKeyName (.multipleCustom requests (some templates)) values
        (requests.map (run surroundings context scope))

variable {variant : FetchVariant} {values : List Value} {works : List (Effect Value)}
  {name : String} {kind : FetchKind} {result : Value}

theorem Keyed.length_eq (keyed : Keyed surroundings context scope apiKeyName variant values works) :
    values.length = works.length := by
  cases keyed with
  | multiple => rw [List.length_map, List.length_map]
  | custom proper filled matched => rw [List.length_map, ← matched, filled.length_eq]

/-- The keys of a document are made of proper values. -/
theorem Keyed.proper (keyed : Keyed surroundings context scope apiKeyName variant values works)
    (proper : context.Proper) (bound : scope.Proper) : ∀ value ∈ values, value.Proper := by
  cases keyed with
  | multiple written begun => exact proper.iterations bound written begun
  | custom written filled matched =>
    intro value listed
    obtain ⟨place, here⟩ := List.mem_iff_getElem?.mp listed
    obtain ⟨template, there, made⟩ := exists_at_of_forall₂ filled.flip here
    exact proper.format bound (written template (List.mem_of_getElem? there)) made

/-- There is a key for each request of a fetch that was compiled. -/
theorem length_of_compileVariant {nested : StepConfig → Except StepError FetchSpec}
    {config : StepConfig} {requests : List FetchSpec} {templates : List Value}
    (success : FetchSpec.compileVariant nested config kind =
      .ok (.multipleCustom requests (some templates))) : templates.length = requests.length := by
  cases kind with
  | multipleCustom =>
    obtain ⟨⟨configs, keys, keyed⟩, -, success⟩ := Outcome.bind_ok_iff.mp success
    dsimp only at success
    split at success
    · cases success
    · next fits =>
      obtain ⟨specs, compiled, success⟩ := Outcome.bind_ok_iff.mp success
      have length := (Outcome.mapM_ok_iff.mp compiled).length_eq
      cases keyed with
      | false => cases success
      | true =>
        cases success
        have matched : templates.length = configs.length := by simpa using fits
        rw [matched, length]
  | request | input =>
    obtain ⟨_, -, success⟩ := Outcome.bind_ok_iff.mp success
    cases success
  | memory | multiple =>
    obtain ⟨_, -, success⟩ := Outcome.bind_ok_iff.mp success
    obtain ⟨_, -, success⟩ := Outcome.bind_ok_iff.mp success
    cases success

/-- What is fetched is written under the texts of the values, in order. -/
theorem Keyed.run_ok (keyed : Keyed surroundings context scope apiKeyName variant values works)
    (live : context.config.testing = false)
    (success : run surroundings context scope (.mk kind name apiKeyName variant) world =
      (.ok result, after)) :
    ∃ responses, Gives works world responses after ∧
      result = .object (written [] (values.map Value.text) responses) := by
  cases keyed with
  | @multiple request stepsValue useLoopAsKey keyed iterations _ begun asked truthy =>
    rw [run, Attempt.annotate_ok_iff, runVariant, unlessTesting, if_neg (by simp [live])] at success
    obtain ⟨found, between, gone, success⟩ := Attempt.bind_ok_iff.mp success
    obtain ⟨again, rfl⟩ := Attempt.ofExcept_ok_iff.mp gone
    obtain rfl : iterations = found := Except.ok.inj (begun.symm.trans again)
    obtain ⟨shown, between, wanted, success⟩ := Attempt.bind_ok_iff.mp success
    obtain ⟨alike, rfl⟩ := Attempt.ofExcept_ok_iff.mp wanted
    obtain rfl : keyed = shown := Except.ok.inj (asked.symm.trans alike)
    rw [if_pos truthy] at success
    obtain ⟨fields, later, sent, success⟩ := Attempt.bind_ok_iff.mp success
    obtain ⟨rfl, rfl⟩ := Attempt.pure_ok_iff.mp success
    obtain ⟨responses, gives, rfl⟩ := sendKeyed_ok sent
    refine ⟨responses, gives, ?_⟩
    rw [List.map_map]
    rfl
  | @custom requests templates _ _ filled matched =>
    obtain ⟨texts, responses, found, gives, rfl⟩ := run_custom_ok matched live success
    obtain rfl := texts_of_filled filled found
    exact ⟨responses, gives, rfl⟩

/-- Under different texts every value is kept. -/
theorem written_of_nodup {names : List String} {responses : List Value} (nodup : names.Nodup)
    (length : responses.length = names.length) : written [] names responses = names.zip responses := by
  have same : Fields.names (names.zip responses) = names := List.map_fst_zip length.ge
  exact Fields.ofList_of_nodup (by rwa [same])

/-- Different values of which none spells out another one have different texts. -/
theorem nodup_texts (different : values.Nodup) (proper : ∀ value ∈ values, value.Proper)
    (plain : ∀ v ∈ values, ∀ w ∈ values, ¬ v.Spells w) : (values.map Value.text).Nodup := by
  refine List.Nodup.map_on (fun v listed w among same => ?_) different
  rcases Value.eq_or_spells_of_text_eq (proper v listed) (proper w among) same with rfl | spells | spells
  · rfl
  · exact absurd spells (plain v listed w among)
  · exact absurd spells (plain w among v listed)

/-- Where responses are kept by key, the values that the keys are made of are all different and none
of them spells out another one, no response is lost: there is one entry for each value, in order,
and it holds the response that was fetched for it. -/
theorem keyed_keeps_responses (proper : context.Proper) (bound : scope.Proper)
    (live : context.config.testing = false)
    (keyed : Keyed surroundings context scope apiKeyName variant values works)
    (different : values.Nodup) (plain : ∀ v ∈ values, ∀ w ∈ values, ¬ v.Spells w)
    (success : run surroundings context scope (.mk kind name apiKeyName variant) world =
      (.ok result, after)) :
    ∃ responses, Gives works world responses after ∧ responses.length = values.length ∧
      (values.map Value.text).Nodup ∧
      result = .object ((values.map Value.text).zip responses) := by
  obtain ⟨responses, gives, rfl⟩ := keyed.run_ok live success
  have length : responses.length = values.length := gives.length_eq.trans keyed.length_eq.symm
  have nodup := nodup_texts different (keyed.proper proper bound) plain
  refine ⟨responses, gives, length, nodup, ?_⟩
  rw [written_of_nodup nodup (by rw [length, List.length_map])]

/-- The winds of two places, under the given keys. -/
def winds (name : String) (keys : List Value) : FetchSpec :=
  .mk .multipleCustom name none (.multipleCustom
    [.mk .input "north" none (.input (.string "calm")),
      .mk .input "south" none (.input (.string "storm"))] (some keys))

theorem keyed_keeps_responses_winds :
    Context.forecast.Proper ∧ Scope.root.Proper ∧ Context.forecast.config.testing = false ∧
      ∃ responses, responses.length = 2 ∧
        run Action.offline Context.forecast Scope.root
            (winds "winds" [.ofNat 7, .string "{days.1.text}"]) {} =
          (.ok (.object (["7", "rain"].zip responses)), {}) := by
  have keyed : Keyed Action.offline Context.forecast Scope.root none
      (winds "winds" [.ofNat 7, .string "{days.1.text}"]).variant [.ofNat 7, .string "rain"] _ :=
    .custom (by simp [Value.ofNat]) (.cons rfl (.cons rfl .nil)) rfl
  have ran : run Action.offline Context.forecast Scope.root
      (winds "winds" [.ofNat 7, .string "{days.1.text}"]) {} =
        (.ok (.object [("7", .string "calm"), ("rain", .string "storm")]), {}) := rfl
  obtain ⟨responses, -, length, -, result⟩ := keyed_keeps_responses Context.proper_forecast
    Scope.proper_root rfl keyed (by simp [Value.ofNat]) (by simp [Value.Spells, Value.ofNat]; decide) ran
  refine ⟨Context.proper_forecast, Scope.proper_root, rfl, responses, length, ?_⟩
  rw [ran, result]
  rfl

/-- A number and the string that spells it out take one entry, and in testing mode there is a fixture
instead of entries. -/
theorem keys_share_entry :
    [Value.ofNat 1, .string "1"].Nodup ∧
      run Action.offline Context.forecast Scope.root (winds "winds" [.ofNat 1, .string "1"]) {} =
        (.ok (.object [("1", .string "storm")]), {}) ∧
      (run Action.offline rehearsal Scope.root (winds "sun" [.string "a", .string "b"])
        props).1.toOption.map Json.compact = some "\"bright\"" := by
  refine ⟨by simp [Value.ofNat], rfl, ?_⟩
  decide +kernel

end Newsreel.Fetch
