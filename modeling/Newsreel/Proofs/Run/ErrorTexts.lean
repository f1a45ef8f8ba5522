import Newsreel.Proofs.Fetch.Quoting
import Newsreel.Proofs.Run.Credentials

/-!
What the failure of a fetch tells about the credentials.

Two runs of a fetch, under credentials of the same names and with servers that answer request by
request alike, are followed side by side. They send requests in step and end alike; where both fail,
their failures differ in no more than the text of a request that they quote, unless that text cannot
be sent at all.
-/

namespace Newsreel

/-- Answers are the same, request by request, as far as both logs go. -/
def Web.AnsweredAlike (log other : Log) : Prop :=
  ∀ (i : Nat) (exchange twin : Exchange), log[i]? = some exchange → other[i]? = some twin →
    exchange.answer = twin.answer

theorem Web.AnsweredAlike.of_prefix {log other after behind : Log}
    (alike : AnsweredAlike after behind) (first : log <+: after) (second : other <+: behind) :
    AnsweredAlike log other := by
  intro i exchange twin here there
  obtain ⟨more, rfl⟩ := first
  obtain ⟨rest, rfl⟩ := second
  refine alike i exchange twin ?_ ?_
  · rw [List.getElem?_append_left (List.getElem?_eq_some_iff.mp here).1, here]
  · rw [List.getElem?_append_left (List.getElem?_eq_some_iff.mp there).1, there]

/-- Worlds with the same files in which as many requests have been sent. -/
structure World.InStep (world twin : World) : Prop where
  files : world.files = twin.files
  sent : world.exchanges.length = twin.exchanges.length

/-- The surroundings with other servers. -/
def Surroundings.withNetwork (network : Web.Network) (surroundings : Surroundings) :
    Surroundings :=
  { surroundings with network }

namespace Effect

variable {α β : Type} {discreet : Prop}

/-! Work that only reads files. -/

/-- The work reads files and does nothing else. -/
def Reads (work : Effect α) : Prop :=
  ∃ outcome : Files.Tree → Except StepError α, ∀ world, work world = (outcome world.files, world)

theorem reads_ofExcept (outcome : Except StepError α) :
    Reads (Attempt.ofExcept outcome : Effect α) := ⟨fun _ => outcome, fun _ => rfl⟩

theorem Reads.bind {work : Effect α} {next : α → Effect β} (first : Reads work)
    (later : ∀ a, Reads (next a)) : Reads (work >>= next) := by
  obtain ⟨outcome, ran⟩ := first
  choose after continued using later
  refine ⟨fun files => outcome files >>= fun a => after a files, fun world => ?_⟩
  have begun := ran world
  cases result : outcome world.files with
  | error error =>
    rw [result] at begun
    simp only [Attempt.bind_run_error begun, result]
    rfl
  | ok a =>
    rw [result] at begun
    simp only [Attempt.bind_run_ok begun, continued, result]
    rfl

theorem readValue_reads (path : String) : Reads (readValue path) := by
  have reads : Reads (readFile path) :=
    ⟨fun files => (files.read path).mapError StepError.file, fun world => by
      cases read : world.files.read path <;>
        simp only [readFile, onFiles, Files.Work.look, read, Except.mapError]⟩
  refine reads.bind fun text => ?_
  cases Json.read text with
  | ok value => exact reads_ofExcept (.ok value)
  | error fault => exact reads_ofExcept (.error (.json fault))

theorem entries_reads (snapshots : Snapshots) (job name : String) :
    Reads (snapshots.entries job name) :=
  ⟨fun files => (snapshots.entries job name { files }).1, fun _ => rfl⟩

theorem remembered_reads (surroundings : Surroundings) (config : JobConfig) (name : String)
    (useLast : Nat) (timedelta : Option Float) :
    Reads (Fetch.remembered surroundings config name useLast timedelta) := by
  cases timedelta with
  | none =>
    refine (entries_reads _ _ _).bind fun entries => ?_
    split
    · exact readValue_reads _
    · exact reads_ofExcept (.error _)
  | some days =>
    refine (reads_ofExcept _).bind fun target => (entries_reads _ _ _).bind fun entries => ?_
    split
    · exact readValue_reads _
    · exact reads_ofExcept (.error _)

/-! Work side by side. -/

/-- Two pieces of work, side by side: nothing is taken from the logs, and as long as the answers are
the same, they start in step, end alike and leave off in step. -/
structure Lockstep (discreet : Prop) (work twin : Effect α) : Prop where
  grows (world : World) : world.exchanges <+: (work world).2.exchanges
  growsToo (world : World) : world.exchanges <+: (twin world).2.exchanges
  follows {world other : World} (start : world.InStep other)
    (alike : Web.AnsweredAlike (work world).2.exchanges (twin other).2.exchanges) :
    Outcome.Matches discreet (fun _ _ => (work world).2.InStep (twin other).2) (work world).1
      (twin other).1

theorem lockstep_ofExcept {outcome twin : Except StepError α}
    (matching : Outcome.Matches discreet (fun _ _ => True) outcome twin) :
    Lockstep discreet (Attempt.ofExcept outcome) (Attempt.ofExcept twin) where
  grows _ := List.prefix_refl _
  growsToo _ := List.prefix_refl _
  follows start _ := matching.imp fun _ _ _ => start

theorem lockstep_pure (a b : α) : Lockstep discreet (pure a : Effect α) (pure b) :=
  lockstep_ofExcept (.ok trivial)

theorem Reads.lockstep {work : Effect α} (reads : Reads work) : Lockstep discreet work work := by
  obtain ⟨outcome, ran⟩ := reads
  refine ⟨fun world => ?_, fun world => ?_, fun {world other} start _ => ?_⟩
  · simp only [ran, List.prefix_refl]
  · simp only [ran, List.prefix_refl]
  · rw [ran, ran, start.files]
    exact Outcome.matches_refl _ fun _ => start

/-- What is done may depend on the files. -/
theorem lockstep_of_files {work twin : Effect α} (first second : Files.Tree → Effect α)
    (begins : ∀ world, work world = first world.files world)
    (beginsToo : ∀ world, twin world = second world.files world)
    (each : ∀ files, Lockstep discreet (first files) (second files)) :
    Lockstep discreet work twin where
  grows world := by
    rw [begins]
    exact (each world.files).grows world
  growsToo world := by
    rw [beginsToo]
    exact (each world.files).growsToo world
  follows := by
    intro world other start alike
    rw [begins, beginsToo, ← start.files] at alike ⊢
    exact (each world.files).follows start alike

theorem bind_grows {work : Effect α} {next : α → Effect β}
    (first : ∀ world, world.exchanges <+: (work world).2.exchanges)
    (later : ∀ a world, world.exchanges <+: (next a world).2.exchanges) (world : World) :
    (work world).2.exchanges <+: ((work >>= next) world).2.exchanges ∧
      world.exchanges <+: ((work >>= next) world).2.exchanges := by
  have begun := first world
  rcases ran : work world with ⟨error | a, between⟩
  · rw [Attempt.bind_run_error ran]
    rw [ran] at begun
    exact ⟨List.prefix_refl _, begun⟩
  · rw [Attempt.bind_run_ok ran]
    rw [ran] at begun
    exact ⟨later a between, begun.trans (later a between)⟩

theorem Lockstep.bind {work twin : Effect α} {next other : α → Effect β}
    (first : Lockstep discreet work twin) (later : ∀ a b, Lockstep discreet (next a) (other b)) :
    Lockstep discreet (work >>= next) (twin >>= other) where
  grows world := (bind_grows first.grows (fun a => (later a a).grows) world).2
  growsToo world := (bind_grows first.growsToo (fun a => (later a a).growsToo) world).2
  follows := by
    intro world beside start alike
    have between := first.follows start (alike.of_prefix
      (bind_grows first.grows (fun a => (later a a).grows) world).1
      (bind_grows first.growsToo (fun a => (later a a).growsToo) beside).1)
    rcases ran : work world with ⟨outcome, left⟩
    rcases besideRan : twin beside with ⟨otherOutcome, right⟩
    rw [ran, besideRan] at between
    cases between with
    | @ok a b inStep =>
      rw [Attempt.bind_run_ok ran, Attempt.bind_run_ok besideRan] at alike ⊢
      exact (later a b).follows inStep alike
    | errors same =>
      rw [Attempt.bind_run_error ran, Attempt.bind_run_error besideRan]
      exact .errors same
    | @first error b unsendable =>
      rw [Attempt.bind_run_error ran, Attempt.bind_run_ok besideRan]
      cases (other b right).1 with
      | error _ => exact .errors (Or.inl unsendable)
      | ok _ => exact .first unsendable
    | @second a error unsendable =>
      rw [Attempt.bind_run_ok ran, Attempt.bind_run_error besideRan]
      cases (next a left).1 with
      | error _ => exact .errors (Or.inr (Or.inl unsendable))
      | ok _ => exact .second unsendable

/-- Both begin with the same finding. -/
theorem lockstep_bind_same {outcome : Except StepError α} {next other : α → Effect β}
    (later : ∀ a, Lockstep discreet (next a) (other a)) :
    Lockstep discreet (Attempt.ofExcept outcome >>= next) (Attempt.ofExcept outcome >>= other) := by
  cases outcome with
  | error error => exact lockstep_ofExcept (Outcome.matches_error _ error)
  | ok a => exact later a

theorem Lockstep.annotate {work twin : Effect α} (inside : Lockstep discreet work twin)
    (kind : FetchKind) (name : String) :
    Lockstep discreet (Attempt.annotate (.fetch kind name) work)
      (Attempt.annotate (.fetch kind name) twin) where
  grows world := by
    rw [Attempt.annotate_snd]
    exact inside.grows world
  growsToo world := by
    rw [Attempt.annotate_snd]
    exact inside.growsToo world
  follows := by
    intro world other start alike
    rw [Attempt.annotate_snd, Attempt.annotate_snd] at alike ⊢
    have followed := inside.follows start alike
    rcases ran : work world with ⟨outcome, left⟩
    rcases otherRan : twin other with ⟨otherOutcome, right⟩
    rw [ran, otherRan] at followed
    simp only [Attempt.annotate, ran, otherRan]
    cases followed with
    | ok inStep => exact .ok inStep
    | errors same => exact .errors (same.fetch kind name)
    | first unsendable => exact .first unsendable
    | second unsendable => exact .second unsendable

end Effect

/-! Requests sent. -/

namespace Web

variable {discreet : Prop}

/-- What comes of an exchange. -/
def Exchange.outcome (exchange : Exchange) : Except StepError Value :=
  match exchange.answer with
  | .error fault => .error (.web fault)
  | .ok response => response.value exchange.request

/-- One answer to two requests comes out alike. -/
theorem Exchange.outcome_matches {exchange twin : Exchange}
    (requests : exchange.request.Matches discreet twin.request)
    (answers : exchange.answer = twin.answer) :
    Outcome.Matches discreet (fun _ _ => True) exchange.outcome twin.outcome := by
  rw [outcome, outcome, ← answers]
  cases exchange.answer with
  | error fault => exact Outcome.matches_error _ _
  | ok response =>
    simp only [Response.value, ← requests.responseFormat, ← requests.includeHeaders]
    split
    · exact Outcome.matches_refl _ fun _ => trivial
    · exact .errors (Or.inr (Or.inr ⟨rfl, fun holds => by rw [requests.url holds]⟩))

end Web

namespace Effect

variable {discreet : Prop} (surroundings : Surroundings) (network : Web.Network)

/-- What a server answers to a request at a certain point. -/
def exchange (surroundings : Surroundings) (request : Request) (world : World) : Web.Exchange :=
  ⟨request, surroundings.network (world.exchanges.map (·.request)) request⟩

theorem send_sendable {request : Request} (sendable : Web.isSendable request = true)
    (world : World) : send surroundings request world =
      ((exchange surroundings request world).outcome,
        { world with exchanges := world.exchanges ++ [exchange surroundings request world] }) := by
  simp only [send, Attempt.within, Web.send, sendable, if_true]
  rfl

theorem send_unsendable {request : Request} (unsendable : Web.isSendable request = false)
    (world : World) : send surroundings request world = (.error (.web .builder), world) := by
  simp only [send, Attempt.within, Web.send, unsendable, if_false, Bool.false_eq_true]

theorem send_grows (request : Request) (world : World) :
    world.exchanges <+: (send surroundings request world).2.exchanges := by
  cases sendable : Web.isSendable request with
  | true =>
    rw [send_sendable surroundings sendable]
    exact List.prefix_append _ _
  | false =>
    simp only [send_unsendable surroundings sendable, List.prefix_refl]

theorem send_lockstep {request twin : Request} (requests : request.Matches discreet twin) :
    Lockstep discreet (send surroundings request) (send (surroundings.withNetwork network) twin) where
  grows world := send_grows surroundings request world
  growsToo world := send_grows (surroundings.withNetwork network) twin world
  follows := by
    intro world other start alike
    cases sendable : Web.isSendable request with
    | false =>
      rw [send_unsendable surroundings sendable]
      cases (send (surroundings.withNetwork network) twin other).1 with
      | error _ => exact .errors (Or.inl rfl)
      | ok _ => exact .first rfl
    | true => cases sendableToo : Web.isSendable twin with
      | false =>
        rw [send_unsendable _ sendableToo]
        cases (send surroundings request world).1 with
        | error _ => exact .errors (Or.inr (Or.inl rfl))
        | ok _ => exact .second rfl
      | true =>
        rw [send_sendable _ sendable, send_sendable _ sendableToo] at alike ⊢
        have answers := alike world.exchanges.length _ _ List.getElem?_concat_length
          (by rw [start.sent]; exact List.getElem?_concat_length)
        refine (Web.Exchange.outcome_matches requests answers).imp fun _ _ _ => ⟨start.files, ?_⟩
        simp only [List.length_append, List.length_singleton, start.sent]

end Effect

/-! Fetches. -/

/-- What a fetch may be refused with quotes no credential; nothing is said of fetches nested in
it. -/
def FetchSpec.Discreet (spec : FetchSpec) : Prop := match spec.variant with
  | .request request => request.Discreet
  | .multiple request _ _ => request.Discreet
  | .input _ | .memory _ _ _ | .multipleCustom _ _ => True

namespace Fetch

open Effect

variable {context : Context} {keys : List (String × String)} {discreet : Prop}
  (surroundings : Surroundings) (network : Web.Network)

theorem sendRequest_lockstep (present : context.config.SameKeyNames keys)
    (apiKeyName : Option String) (scope : Scope) (spec : RequestSpec)
    (silent : discreet → spec.Discreet) :
    Lockstep discreet (sendRequest surroundings context apiKeyName scope spec)
      (sendRequest (surroundings.withNetwork network) (context.withKeys keys) apiKeyName scope
        spec) := by
  have built := RequestSpec.build_matches present apiKeyName scope spec silent
  rw [sendRequest, sendRequest]
  generalize spec.build context apiKeyName scope = first at built
  generalize spec.build (context.withKeys keys) apiKeyName scope = second at built
  cases built with
  | ok requests => exact send_lockstep surroundings network requests
  | errors same => exact lockstep_ofExcept (.errors same)
  | @first error request unsendable =>
    refine ⟨fun world => List.prefix_refl _, send_grows _ request, fun {_ other} _ _ => ?_⟩
    change Outcome.Matches discreet _ (.error error)
      (send (surroundings.withNetwork network) request other).1
    cases (send (surroundings.withNetwork network) request other).1 with
    | error _ => exact .errors (Or.inl unsendable)
    | ok _ => exact .first unsendable
  | @second request error unsendable =>
    refine ⟨send_grows _ request, fun world => List.prefix_refl _, fun {world _} _ _ => ?_⟩
    change Outcome.Matches discreet _ (send surroundings request world).1 (.error error)
    cases (send surroundings request world).1 with
    | error _ => exact .errors (Or.inr (Or.inl unsendable))
    | ok _ => exact .second unsendable

theorem sendKeyed_lockstep (present : context.config.SameKeyNames keys)
    (apiKeyName : Option String) (spec : RequestSpec) (silent : discreet → spec.Discreet)
    (gathered others : Fields) (iterations : List Iteration) :
    Lockstep discreet (sendKeyed surroundings context apiKeyName spec gathered iterations)
      (sendKeyed (surroundings.withNetwork network) (context.withKeys keys) apiKeyName spec others
        iterations) := by
  induction iterations generalizing gathered others with
  | nil => exact lockstep_pure _ _
  | cons iteration rest ih =>
    exact (sendRequest_lockstep surroundings network present apiKeyName iteration.scope spec
      silent).bind fun _ _ => ih _ _

theorem sendMultiple_lockstep (present : context.config.SameKeyNames keys)
    (apiKeyName : Option String) (scope : Scope) (spec : RequestSpec)
    (silent : discreet → spec.Discreet) (stepsValue useLoopAsKey : Value) :
    Lockstep discreet
      (sendMultiple surroundings context apiKeyName scope spec stepsValue useLoopAsKey)
      (sendMultiple (surroundings.withNetwork network) (context.withKeys keys) apiKeyName scope spec
        stepsValue useLoopAsKey) := by
  rw [sendMultiple, sendMultiple, Context.iterations_withKeys, Context.format_withKeys]
  refine lockstep_bind_same fun iterations => lockstep_bind_same fun keyed => ?_
  split
  · exact (sendKeyed_lockstep surroundings network present apiKeyName spec silent [] []
      iterations).bind fun _ _ => lockstep_pure _ _
  · cases iterations with
    | nil => exact lockstep_pure _ _
    | cons iteration rest =>
      exact (sendRequest_lockstep surroundings network present apiKeyName iteration.scope spec
        silent).bind fun _ _ => lockstep_pure _ _

theorem unlessTesting_lockstep (name : String) {work twin : Effect Value}
    (lockstep : Lockstep discreet work twin) :
    Lockstep discreet (unlessTesting context name work)
      (unlessTesting (context.withKeys keys) name twin) := by
  have same : (context.withKeys keys).config.testing = context.config.testing := rfl
  rw [unlessTesting, unlessTesting, same]
  split
  · exact (readValue_reads _).lockstep
  · exact lockstep

/-- What a fetch of a snapshot does about what came of reading the snapshot. -/
def orAlternative (surroundings : Surroundings) (context : Context) (scope : Scope)
    (alternative : Option FetchSpec) : Except StepError Value → Effect Value
  | .ok value => Attempt.ofExcept (.ok value)
  | .error error =>
    if error.isCacheMiss then runAlternative surroundings context scope error alternative
    else Attempt.ofExcept (.error error)

theorem runVariant_memory {surroundings : Surroundings} {useLast : Nat} {timedelta : Option Float}
    {name : String} {outcome : Files.Tree → Except StepError Value}
    (read : ∀ world, remembered surroundings context.config name useLast timedelta world =
      (outcome world.files, world))
    (scope : Scope) (apiKeyName : Option String) (alternative : Option FetchSpec) (world : World) :
    runVariant surroundings context scope name apiKeyName
        (.memory useLast timedelta alternative) world =
      orAlternative surroundings context scope alternative (outcome world.files) world := by
  simp only [runVariant, read]
  cases outcome world.files with
  | ok value => rfl
  | error error =>
    simp only [orAlternative]
    split <;> rfl

mutual
/-- A fetch runs side by side under credentials of the same names. -/
theorem run_lockstep (present : context.config.SameKeyNames keys) (scope : Scope) :
    (spec : FetchSpec) → (discreet → ∀ member ∈ spec.family, member.Discreet) →
      Lockstep discreet (run surroundings context scope spec)
        (run (surroundings.withNetwork network) (context.withKeys keys) scope spec)
  | .mk kind name apiKeyName variant, silent => by
    rw [run, run]
    refine Lockstep.annotate ?_ kind name
    exact runVariant_lockstep present scope kind name apiKeyName variant silent

theorem runVariant_lockstep (present : context.config.SameKeyNames keys) (scope : Scope)
    (kind : FetchKind) (name : String) (apiKeyName : Option String) : (variant : FetchVariant) →
    (discreet → ∀ member ∈ FetchSpec.family (.mk kind name apiKeyName variant), member.Discreet) →
      Lockstep discreet (runVariant surroundings context scope name apiKeyName variant)
        (runVariant (surroundings.withNetwork network) (context.withKeys keys) scope name apiKeyName
          variant)
  | .request request, silent => by
    rw [runVariant, runVariant]
    refine unlessTesting_lockstep name (sendRequest_lockstep surroundings network present apiKeyName
      scope request fun holds => ?_)
    exact silent holds (.mk kind name apiKeyName (.request request)) (by simp [FetchSpec.family])
  | .input input, _ => by
    rw [runVariant, runVariant]
    exact lockstep_ofExcept
      ((Context.deepFormat_matches present apiKeyName scope input).imp fun _ _ _ => trivial)
  | .memory useLast timedelta alternative, silent => by
    obtain ⟨outcome, read⟩ :=
      remembered_reads surroundings context.config name useLast timedelta
    have readToo (world : World) : remembered (surroundings.withNetwork network)
        (context.withKeys keys).config name useLast timedelta world =
          (outcome world.files, world) := read world
    -- A snapshot that is missing is missing in both runs.
    refine lockstep_of_files
      (fun files => orAlternative surroundings context scope alternative (outcome files))
      (fun files => orAlternative (surroundings.withNetwork network) (context.withKeys keys) scope
        alternative (outcome files))
      (runVariant_memory read scope apiKeyName alternative)
      (runVariant_memory readToo scope apiKeyName alternative) fun files => ?_
    cases outcome files with
    | ok value => exact lockstep_ofExcept (.ok trivial)
    | error error =>
      simp only [orAlternative]
      split
      · exact runAlternative_lockstep present scope error alternative fun holds member nested =>
          silent holds member (List.mem_cons_of_mem _ nested)
      · exact lockstep_ofExcept (Outcome.matches_error _ error)
  | .multiple request stepsValue useLoopAsKey, silent => by
    rw [runVariant, runVariant]
    refine unlessTesting_lockstep name (sendMultiple_lockstep surroundings network present apiKeyName
      scope request (fun holds => ?_) stepsValue useLoopAsKey)
    exact silent holds (.mk kind name apiKeyName (.multiple request stepsValue useLoopAsKey))
      (by simp [FetchSpec.family])
  | .multipleCustom requests (some templates), silent => by
    rw [runVariant, runVariant]
    refine unlessTesting_lockstep name (Lockstep.bind ?_ fun _ _ => lockstep_pure _ _)
    exact runKeyed_lockstep present scope [] [] templates requests fun holds member nested =>
      silent holds member (List.mem_cons_of_mem _ nested)
  | .multipleCustom requests none, silent => by
    rw [runVariant, runVariant]
    refine unlessTesting_lockstep name (Lockstep.bind ?_ fun _ _ => lockstep_pure _ _)
    exact runAll_lockstep present scope requests fun holds member nested =>
      silent holds member (List.mem_cons_of_mem _ nested)

theorem runAlternative_lockstep (present : context.config.SameKeyNames keys) (scope : Scope)
    (miss : StepError) : (alternative : Option FetchSpec) →
    (discreet → ∀ member ∈ FetchSpec.familyOf? alternative, member.Discreet) →
      Lockstep discreet (runAlternative surroundings context scope miss alternative)
        (runAlternative (surroundings.withNetwork network) (context.withKeys keys) scope miss
          alternative)
  | none, _ => by
    rw [runAlternative, runAlternative]
    exact lockstep_ofExcept (Outcome.matches_error _ miss)
  | some alternative, silent => by
    rw [runAlternative, runAlternative]
    exact run_lockstep present scope alternative silent

theorem runAll_lockstep (present : context.config.SameKeyNames keys) (scope : Scope) :
    (specs : List FetchSpec) →
    (discreet → ∀ member ∈ FetchSpec.familyOf specs, member.Discreet) →
      Lockstep discreet (runAll surroundings context scope specs)
        (runAll (surroundings.withNetwork network) (context.withKeys keys) scope specs)
  | [], _ => by
    rw [runAll, runAll]
    exact lockstep_pure _ _
  | spec :: rest, silent => by
    rw [runAll, runAll]
    refine (run_lockstep present scope spec fun holds member nested => ?_).bind fun _ _ =>
      (runAll_lockstep present scope rest fun holds member nested => ?_).bind fun _ _ =>
        lockstep_pure _ _
    · exact silent holds member (List.mem_append_left _ nested)
    · exact silent holds member (List.mem_append_right _ nested)

theorem runKeyed_lockstep (present : context.config.SameKeyNames keys) (scope : Scope)
    (gathered others : Fields) : (templates : List Value) → (specs : List FetchSpec) →
    (discreet → ∀ member ∈ FetchSpec.familyOf specs, member.Discreet) →
      Lockstep discreet (runKeyed surroundings context scope gathered templates specs)
        (runKeyed (surroundings.withNetwork network) (context.withKeys keys) scope others templates
          specs)
  | template :: templates, spec :: specs, silent => by
    rw [runKeyed, runKeyed, Context.formatText_withKeys]
    refine lockstep_bind_same fun key =>
      (run_lockstep present scope spec fun holds member nested => ?_).bind fun _ _ =>
        runKeyed_lockstep present scope _ _ templates specs fun holds member nested => ?_
    · exact silent holds member (List.mem_append_left _ nested)
    · exact silent holds member (List.mem_append_right _ nested)
  | [], _, _ => by
    rw [runKeyed, runKeyed]
    · exact lockstep_pure _ _
    · nofun
    · nofun
  | _ :: _, [], _ => by
    rw [runKeyed, runKeyed]
    · exact lockstep_pure _ _
    · nofun
    · nofun
end

end Fetch

namespace Action

variable {surroundings : Surroundings} {scope : Scope} {key : String} {spec : FetchSpec}
  {context left : Context} {world after : World} {error : StepError}

/-- A context with one credential. -/
def keyed (key : String) : Context :=
  Context.start { JobConfig.named "news" with apiKeys := [("sky", key)] } "run"

end Action

end Newsreel
