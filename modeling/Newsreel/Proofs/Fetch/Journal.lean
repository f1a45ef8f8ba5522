import Newsreel.Proofs.Run.Pieces

/-!
Fetches that keep a journal.

A fetch with a journal notes every fetch that is begun, itself and those nested in it, and every
look for a snapshot. Apart from that it does what the fetch does, and behind its own beginning it
notes none but those of fetches nested in it. So what the journal says is said of the fetch.
-/

namespace Newsreel.Fetch

/-- What is noted. -/
inductive Act where
  | begins (spec : FetchSpec)
  | recalls (name : String) (useLast : Nat) (timedelta : Option Float)

/-- The world, and what has been noted so far. -/
structure Journaled where
  world : World
  acts : List Act := []

def note (act : Act) : Attempt Journaled Unit := fun state =>
  (.ok (), { state with acts := state.acts ++ [act] })

/-- Work that notes nothing. -/
def unnoted {α : Type} (work : Effect α) : Attempt Journaled α :=
  Attempt.within (·.world) (fun state world => { state with world }) work

/-- A look for a snapshot. -/
def recallNoted (surroundings : Surroundings) (config : JobConfig) (name : String) (useLast : Nat)
    (timedelta : Option Float) : Attempt Journaled Value := do
  note (.recalls name useLast timedelta)
  unnoted (remembered surroundings config name useLast timedelta)

mutual
/-- Runs a fetch and keeps a journal. -/
def runNoted (surroundings : Surroundings) (context : Context) (scope : Scope) :
    FetchSpec → Attempt Journaled Value
  | .mk kind name apiKeyName variant => do
    note (.begins (.mk kind name apiKeyName variant))
    Attempt.annotate (.fetch kind name)
      (runVariantNoted surroundings context scope name apiKeyName variant)

def runVariantNoted (surroundings : Surroundings) (context : Context) (scope : Scope)
    (name : String) (apiKeyName : Option String) : FetchVariant → Attempt Journaled Value
  | .request request =>
    unnoted (runVariant surroundings context scope name apiKeyName (.request request))
  | .input input => unnoted (runVariant surroundings context scope name apiKeyName (.input input))
  | .memory useLast timedelta alternative =>
    tryCatch (recallNoted surroundings context.config name useLast timedelta) fun error =>
      if error.isCacheMiss then runAlternativeNoted surroundings context scope error alternative
      else throw error
  | .multiple request stepsValue useLoopAsKey =>
    unnoted (runVariant surroundings context scope name apiKeyName
      (.multiple request stepsValue useLoopAsKey))
  | .multipleCustom requests keys =>
    if context.config.testing then unnoted (fixture context.config name)
    else match keys with
      | some keys => do
        return .object (← runKeyedNoted surroundings context scope [] keys requests)
      | none => do return .array (← runAllNoted surroundings context scope requests)

def runAlternativeNoted (surroundings : Surroundings) (context : Context) (scope : Scope)
    (miss : StepError) : Option FetchSpec → Attempt Journaled Value
  | none => throw miss
  | some alternative => runNoted surroundings context scope alternative

def runAllNoted (surroundings : Surroundings) (context : Context) (scope : Scope) :
    List FetchSpec → Attempt Journaled (List Value)
  | [] => pure []
  | spec :: specs => do
    let value ← runNoted surroundings context scope spec
    let values ← runAllNoted surroundings context scope specs
    return value :: values

def runKeyedNoted (surroundings : Surroundings) (context : Context) (scope : Scope)
    (gathered : Fields) : List Value → List FetchSpec → Attempt Journaled Fields
  | key :: keys, spec :: specs => do
    let key ← Attempt.ofExcept (context.formatText scope key)
    let value ← runNoted surroundings context scope spec
    runKeyedNoted surroundings context scope (Fields.insert key value gathered) keys specs
  | _, _ => pure gathered
end

/-! What a journal has to do with the work. -/

/-- Work with a journal does what other work does, and notes of fetches that are begun none but the
given ones. -/
def Follows {α : Type} (specs : List FetchSpec) (work : Attempt Journaled α) (plain : Effect α) :
    Prop :=
  ∀ state, ∃ acts,
    work state = ((plain state.world).1, ⟨(plain state.world).2, state.acts ++ acts⟩) ∧
    ∀ spec, .begins spec ∈ acts → spec ∈ specs

section Follows

variable {α β : Type} {specs more : List FetchSpec} {work : Attempt Journaled α} {plain : Effect α}
  {next : α → Attempt Journaled β} {plainNext : α → Effect β}

theorem follows_unnoted (specs : List FetchSpec) (plain : Effect α) :
    Follows specs (unnoted plain) plain := by
  intro state
  refine ⟨[], ?_, nofun⟩
  rw [List.append_nil]
  rfl

theorem follows_pure (specs : List FetchSpec) (a : α) :
    Follows specs (pure a : Attempt Journaled α) (pure a) := follows_unnoted specs (pure a)

theorem follows_throw (specs : List FetchSpec) (error : StepError) :
    Follows specs (throw error : Attempt Journaled α) (throw error) :=
  follows_unnoted specs (throw error)

theorem Follows.mono (follows : Follows specs work plain) (within : specs ⊆ more) :
    Follows more work plain := by
  intro state
  obtain ⟨acts, ran, begun⟩ := follows state
  exact ⟨acts, ran, fun spec noted => within (begun spec noted)⟩

theorem Follows.note (follows : Follows specs work plain) {act : Act}
    (known : ∀ spec, act = .begins spec → spec ∈ specs) :
    Follows specs (do note act; work) plain := by
  intro state
  obtain ⟨acts, ran, begun⟩ := follows { state with acts := state.acts ++ [act] }
  refine ⟨act :: acts, ?_, fun spec noted => ?_⟩
  · rw [List.append_assoc] at ran
    exact ran
  · rcases List.mem_cons.mp noted with own | later
    · exact known spec own.symm
    · exact begun spec later

theorem Follows.bind (first : Follows specs work plain)
    (later : ∀ a, Follows specs (next a) (plainNext a)) :
    Follows specs (work >>= next) (plain >>= plainNext) := by
  intro state
  obtain ⟨acts, ran, begun⟩ := first state
  rcases went : plain state.world with ⟨error | a, after⟩
  · rw [went] at ran
    rw [Attempt.bind_run_error ran, Attempt.bind_run_error went]
    exact ⟨acts, rfl, begun⟩
  · rw [went] at ran
    rw [Attempt.bind_run_ok ran, Attempt.bind_run_ok went]
    obtain ⟨others, ranOn, begunLater⟩ := later a ⟨after, state.acts ++ acts⟩
    refine ⟨acts ++ others, ?_, fun spec noted => ?_⟩
    · rw [ranOn, List.append_assoc]
    · rcases List.mem_append.mp noted with early | late
      · exact begun spec early
      · exact begunLater spec late

theorem Follows.annotate (inside : Follows specs work plain) (layer : StepError → StepError) :
    Follows specs (Attempt.annotate layer work) (Attempt.annotate layer plain) := by
  intro state
  obtain ⟨acts, ran, begun⟩ := inside state
  refine ⟨acts, ?_, begun⟩
  rw [Attempt.annotate_run, Attempt.annotate_run, ran]

theorem Follows.recover {other : StepError → Attempt Journaled α}
    {plainOther : StepError → Effect α}
    (first : Follows specs work plain)
    (later : ∀ error, Follows specs (other error) (plainOther error)) :
    Follows specs (tryCatch work other) (tryCatch plain plainOther) := by
  intro state
  obtain ⟨acts, ran, begun⟩ := first state
  rcases went : plain state.world with ⟨error | a, after⟩
  · rw [went] at ran
    rw [Attempt.tryCatch_run_error ran, Attempt.tryCatch_run_error went]
    obtain ⟨others, ranOn, begunLater⟩ := later error ⟨after, state.acts ++ acts⟩
    refine ⟨acts ++ others, ?_, fun spec noted => ?_⟩
    · rw [ranOn, List.append_assoc]
    · rcases List.mem_append.mp noted with early | late
      · exact begun spec early
      · exact begunLater spec late
  · rw [went] at ran
    rw [Attempt.tryCatch_run_ok ran, Attempt.tryCatch_run_ok went]
    exact ⟨acts, rfl, begun⟩

end Follows

/-! No fetch lies within itself. -/

mutual
theorem sizeOf_family : (outer : FetchSpec) → ∀ inner ∈ outer.family, sizeOf inner ≤ sizeOf outer
  | .mk kind name apiKeyName variant, inner, within => by
    rw [FetchSpec.family] at within
    rcases List.mem_cons.mp within with rfl | nested
    · exact Nat.le_refl _
    · have smaller := sizeOf_nested variant inner nested
      rw [FetchSpec.mk.sizeOf_spec]
      omega

theorem sizeOf_nested : (variant : FetchVariant) → ∀ inner ∈ variant.nested,
    sizeOf inner < sizeOf variant
  | .request _, _, within | .input _, _, within | .multiple _ _ _, _, within => by
    rw [FetchVariant.nested] at within
    cases within
  | .memory useLast timedelta alternative, inner, within => by
    rw [FetchVariant.nested] at within
    have smaller := sizeOf_familyOf? alternative inner within
    rw [FetchVariant.memory.sizeOf_spec]
    omega
  | .multipleCustom requests keys, inner, within => by
    rw [FetchVariant.nested] at within
    have smaller := sizeOf_familyOf requests inner within
    rw [FetchVariant.multipleCustom.sizeOf_spec]
    omega

theorem sizeOf_familyOf? : (outer : Option FetchSpec) → ∀ inner ∈ FetchSpec.familyOf? outer,
    sizeOf inner < sizeOf outer
  | none, _, within => by
    rw [FetchSpec.familyOf?] at within
    cases within
  | some outer, inner, within => by
    rw [FetchSpec.familyOf?] at within
    have smaller := sizeOf_family outer inner within
    rw [Option.some.sizeOf_spec]
    omega

theorem sizeOf_familyOf : (outers : List FetchSpec) → ∀ inner ∈ FetchSpec.familyOf outers,
    sizeOf inner < sizeOf outers
  | [], _, within => by
    rw [FetchSpec.familyOf] at within
    cases within
  | outer :: outers, inner, within => by
    rw [FetchSpec.familyOf] at within
    rw [List.cons.sizeOf_spec]
    rcases List.mem_append.mp within with first | later
    · have smaller := sizeOf_family outer inner first
      omega
    · have smaller := sizeOf_familyOf outers inner later
      omega
end

theorem not_nested_itself (spec : FetchSpec) : spec ∉ spec.variant.nested := by
  obtain ⟨kind, name, apiKeyName, variant⟩ := spec
  intro within
  have smaller := sizeOf_nested variant _ within
  rw [FetchSpec.mk.sizeOf_spec] at smaller
  omega

theorem mem_family_self (spec : FetchSpec) : spec ∈ spec.family := by
  obtain ⟨kind, name, apiKeyName, variant⟩ := spec
  rw [FetchSpec.family]
  exact List.mem_cons_self

variable (surroundings : Surroundings) (context : Context) (scope : Scope)

/-! Fetches with a journal follow fetches. -/

mutual
theorem follows_runNoted : (spec : FetchSpec) →
    Follows spec.family (runNoted surroundings context scope spec)
      (run surroundings context scope spec)
  | .mk kind name apiKeyName variant => by
    rw [runNoted, run, FetchSpec.family]
    refine Follows.note ?_ fun spec own => ?_
    · exact ((follows_runVariantNoted name apiKeyName variant).mono
        (List.subset_cons_self _ _)).annotate _
    · cases own
      exact List.mem_cons_self

theorem follows_runVariantNoted (name : String) (apiKeyName : Option String) :
    (variant : FetchVariant) →
    Follows variant.nested (runVariantNoted surroundings context scope name apiKeyName variant)
      (runVariant surroundings context scope name apiKeyName variant)
  | .request _ => by
    rw [runVariantNoted]
    exact follows_unnoted _ _
  | .input _ => by
    rw [runVariantNoted]
    exact follows_unnoted _ _
  | .multiple _ _ _ => by
    rw [runVariantNoted]
    exact follows_unnoted _ _
  | .memory useLast timedelta alternative => by
    rw [runVariantNoted, runVariant_memory_eq, FetchVariant.nested]
    refine Follows.recover ((follows_unnoted _ _).note nofun) fun error => ?_
    split
    · exact follows_runAlternativeNoted error alternative
    · exact follows_throw _ error
  | .multipleCustom requests none => by
    rw [runVariantNoted, runVariant, unlessTesting, FetchVariant.nested]
    split
    · exact follows_unnoted _ _
    · exact (follows_runAllNoted requests).bind fun values => follows_pure _ _
  | .multipleCustom requests (some keys) => by
    rw [runVariantNoted, runVariant, unlessTesting, FetchVariant.nested]
    split
    · exact follows_unnoted _ _
    · exact (follows_runKeyedNoted [] keys requests).bind fun gathered => follows_pure _ _

theorem follows_runAlternativeNoted (miss : StepError) : (alternative : Option FetchSpec) →
    Follows (FetchSpec.familyOf? alternative)
      (runAlternativeNoted surroundings context scope miss alternative)
      (runAlternative surroundings context scope miss alternative)
  | none => by
    rw [runAlternativeNoted, runAlternative]
    exact follows_throw _ miss
  | some alternative => by
    rw [runAlternativeNoted, runAlternative, FetchSpec.familyOf?]
    exact follows_runNoted alternative

theorem follows_runAllNoted : (specs : List FetchSpec) →
    Follows (FetchSpec.familyOf specs) (runAllNoted surroundings context scope specs)
      (runAll surroundings context scope specs)
  | [] => by
    rw [runAllNoted, runAll]
    exact follows_pure _ []
  | spec :: specs => by
    rw [runAllNoted, runAll, FetchSpec.familyOf]
    exact ((follows_runNoted spec).mono (List.subset_append_left _ _)).bind fun value =>
      ((follows_runAllNoted specs).mono (List.subset_append_right _ _)).bind fun values =>
        follows_pure _ _

theorem follows_runKeyedNoted (gathered : Fields) : (keys : List Value) → (specs : List FetchSpec) →
    Follows (FetchSpec.familyOf specs)
      (runKeyedNoted surroundings context scope gathered keys specs)
      (runKeyed surroundings context scope gathered keys specs)
  | key :: keys, spec :: specs => by
    rw [runKeyedNoted, runKeyed, FetchSpec.familyOf]
    exact (follows_unnoted _ (Attempt.ofExcept _)).bind fun text =>
      ((follows_runNoted spec).mono (List.subset_append_left _ _)).bind fun value =>
        (follows_runKeyedNoted _ keys specs).mono (List.subset_append_right _ _)
  | [], _ => by
    rw [runKeyedNoted, runKeyed]
    · exact follows_pure _ gathered
    all_goals nofun
  | _ :: _, [] => by
    rw [runKeyedNoted, runKeyed]
    · exact follows_pure _ gathered
    all_goals nofun
end

/-- A fetch is begun once, and what is begun behind that are fetches nested in it. -/
theorem runNoted_begins (spec : FetchSpec) (state : Journaled) : ∃ later,
    runNoted surroundings context scope spec state =
      ((run surroundings context scope spec state.world).1,
        ⟨(run surroundings context scope spec state.world).2,
          state.acts ++ .begins spec :: later⟩) ∧
    .begins spec ∉ later ∧ ∀ inner, .begins inner ∈ later → inner ∈ spec.variant.nested := by
  obtain ⟨kind, name, apiKeyName, variant⟩ := spec
  have inside := follows_runVariantNoted surroundings context scope name apiKeyName variant
  obtain ⟨later, ran, begun⟩ := inside.annotate (.fetch kind name)
    ⟨state.world, state.acts ++ [.begins (.mk kind name apiKeyName variant)]⟩
  refine ⟨later, ?_, fun again => not_nested_itself _ (begun _ again), begun⟩
  rw [List.append_assoc] at ran
  rw [runNoted, run]
  exact ran

end Newsreel.Fetch
