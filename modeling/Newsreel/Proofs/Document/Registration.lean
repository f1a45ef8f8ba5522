import Newsreel.Proofs.Document.Lookups

/-!
Tables that are built by registering.

A step that fetches or transforms has its type looked up twice, among the steps and then in the
table of its own kind, and what is found first only tells which table comes next. However types are
registered, over and over and in any order, the two tables agree.
-/

namespace Newsreel

/-- What is registered in a table. A step alone is registered only where it holds transforms or
leads to a sequence. -/
inductive Registration where
  | fetch (name : String) (kind : FetchKind)
  | transform (name : String) (kind : TransformKind)
  | sequence (name : String) (kind : SequenceKind)
  | fetchTypes
  | transformTypes
  | sequenceTypes
  | groupStep (name : String)
  | sequenceStep (name : String)
  deriving DecidableEq, Repr

theorem Table.find?_cons {κ : Type} (entered name : String) (kind : κ) (table : Table κ) :
    Table.find? ((entered, kind) :: table) name =
      if entered = name then some kind else table.find? name := by
  rw [Table.find?, List.find?_cons]
  by_cases same : entered = name <;> simp [same, Table.find?]

namespace DispatchTable

def register (table : DispatchTable) : Registration → DispatchTable
  | .fetch name kind => table.registerFetch name kind
  | .transform name kind => table.registerTransform name kind
  | .sequence name kind => table.registerSequence name kind
  | .fetchTypes => table.registerFetchTypes
  | .transformTypes => table.registerTransformTypes
  | .sequenceTypes => table.registerSequenceTypes
  | .groupStep name => table.registerStep name .transformGroup
  | .sequenceStep name => table.registerStep name .sequence

/-- The table in which all this has been registered, one after the other. -/
def ofRegistrations (registrations : List Registration) : DispatchTable :=
  registrations.foldl register empty

/-- Every step of the table is backed by the table of its own kind. -/
def Agrees (table : DispatchTable) : Prop :=
  ∀ name kind, table.steps.find? name = some kind → table.Backs name kind

variable {table after : DispatchTable} {name : String}

theorem agrees_empty : empty.Agrees := by
  intro name kind found
  cases found

/-- A table still agrees if a step is entered together with what backs it, and what backs the others
stays. -/
theorem Agrees.enter {kind : StepKind} (agrees : table.Agrees)
    (entered : after.steps = (name, kind) :: table.steps) (backs : after.Backs name kind)
    (keeps : ∀ other found, name ≠ other → table.Backs other found → after.Backs other found) :
    after.Agrees := by
  intro other found listed
  rw [entered, Table.find?_cons] at listed
  split at listed
  · next same =>
    cases listed
    exact same ▸ backs
  · next different => exact keeps other found different (agrees other found listed)

theorem Agrees.registerStep {kind : StepKind} (agrees : table.Agrees)
    (backs : table.Backs name kind) : (table.registerStep name kind).Agrees := by
  have same (other : String) (found : StepKind) :
      (table.registerStep name kind).Backs other found = table.Backs other found := by
    cases found <;> rfl
  refine agrees.enter rfl ((same name kind).mpr backs) fun other found _ backed => ?_
  exact (same other found).mpr backed

theorem Agrees.registerFetch (agrees : table.Agrees) (name : String) (kind : FetchKind) :
    (table.registerFetch name kind).Agrees := by
  refine agrees.enter rfl ?_ fun other found different backed => ?_
  · exact (Table.find?_cons name name kind table.fetches).trans (if_pos rfl)
  · cases found with
    | fetch found =>
      exact ((Table.find?_cons name other kind table.fetches).trans (if_neg different)).trans backed
    | _ => exact backed

theorem Agrees.registerTransform (agrees : table.Agrees) (name : String) (kind : TransformKind) :
    (table.registerTransform name kind).Agrees := by
  refine agrees.enter rfl ?_ fun other found different backed => ?_
  · exact (Table.find?_cons name name kind table.transforms).trans (if_pos rfl)
  · cases found with
    | transform found =>
      exact ((Table.find?_cons name other kind table.transforms).trans (if_neg different)).trans
        backed
    | _ => exact backed

/-- Sequences are no steps. -/
theorem Agrees.registerSequence (agrees : table.Agrees) (name : String) (kind : SequenceKind) :
    (table.registerSequence name kind).Agrees := by
  intro other found listed
  have backed := agrees other found listed
  cases found <;> exact backed

theorem Agrees.register (agrees : table.Agrees) (registration : Registration) :
    (table.register registration).Agrees := by
  cases registration with
  | fetch name kind => exact agrees.registerFetch name kind
  | transform name kind => exact agrees.registerTransform name kind
  | sequence name kind => exact agrees.registerSequence name kind
  | fetchTypes =>
    exact List.foldlRecOn _ _ agrees fun table agrees kind _ => agrees.registerFetch kind.name kind
  | transformTypes =>
    have all : (TransformKind.all.foldl
        (fun table kind => table.registerTransform kind.name kind) table).Agrees :=
      List.foldlRecOn _ _ agrees fun table agrees kind _ => agrees.registerTransform kind.name kind
    exact (all.registerTransform "array" .array).registerStep trivial
  | sequenceTypes =>
    have all : (SequenceKind.all.foldl
        (fun table kind => table.registerSequence kind.name kind) table).Agrees :=
      List.foldlRecOn _ _ agrees fun table agrees kind _ => agrees.registerSequence kind.name kind
    exact all.registerStep trivial
  | groupStep name => exact agrees.registerStep trivial
  | sequenceStep name => exact agrees.registerStep trivial

theorem agrees_ofRegistrations (registrations : List Registration) :
    (ofRegistrations registrations).Agrees :=
  List.foldlRecOn _ _ agrees_empty fun _ agrees registration _ => agrees.register registration

theorem orUnknown_ok_iff {κ : Type} {registry : Registry} {entry : Option κ} {kind : κ} :
    orUnknown registry name entry = .ok kind ↔ entry = some kind := by
  refine ⟨orUnknown_ok, ?_⟩
  rintro rfl
  rfl

/-- In a table built by registering, a step that fetches or transforms is a fetch or a transform of
the same kind. So a step is compiled to an action of the kind that its type has among the steps. If
it has one, the only types reported as unknown are those that are looked up for what the step holds
and are missing there; of a step that fetches or transforms its own type never is. -/
theorem lookups_agree {registrations : List Registration}
    (built : ofRegistrations registrations = table) :
    (∀ name kind, table.step name = .ok (.fetch kind) → table.fetch name = .ok kind) ∧
    (∀ name kind, table.step name = .ok (.transform kind) → table.transform name = .ok kind) ∧
    ∀ index config,
      (∀ step, Step.compile table index config = .ok step →
        table.step config.type = .ok step.action.kind) ∧
      ∀ kind registry name, table.step config.type = .ok kind →
        Step.compile table index config = .error (.unknownType registry name) →
        config.SeeksWithin table kind registry name ∧ ¬ table.Registers name registry ∧
          (name = config.type → kind = .transformGroup ∨ kind = .sequence) := by
  have agrees : table.Agrees := built ▸ agrees_ofRegistrations registrations
  refine ⟨fun name kind found => ?_, fun name kind found => ?_, fun index config => ⟨?_, ?_⟩⟩
  · exact orUnknown_ok_iff.mpr (agrees name (.fetch kind) (orUnknown_ok found))
  · exact orUnknown_ok_iff.mpr (agrees name (.transform kind) (orUnknown_ok found))
  · intro step success
    obtain ⟨kind, known, compiled⟩ := Step.compile_ok success
    rw [Step.kind_of_compileAction (agrees _ _ known) compiled]
    exact orUnknown_ok_iff.mpr known
  · intro kind registry name known failed
    have backs := agrees _ _ (orUnknown_ok known)
    obtain ⟨seeks, missing⟩ := Step.compile_blames known backs index _ failed registry name rfl
    refine ⟨seeks, missing, ?_⟩
    rintro rfl
    exact seeks.kind_cases backs missing

/-- All fetches and sequences, some of whose names are registered again as something else. -/
def renamings : List Registration :=
  [.fetchTypes, .transform "request" .replace, .fetch "request" .input, .groupStep "news",
    .sequence "news" .custom, .sequenceTypes, .transform "input" .select]

/-- A group in a group; no transform goes by the name of either. -/
def newsInNews : StepConfig where
  type := "news"
  params := [("transformation", .array [.object [("type", .string "news")]])]

/-- What is registered last counts in both tables. A group that is known is refused for the one in
it. -/
theorem lookups_agree_renamings :
    let table := ofRegistrations renamings
    table.step "request" = .ok (.fetch .input) ∧ table.fetch "request" = .ok .input ∧
    table.step "input" = .ok (.transform .select) ∧ table.transform "input" = .ok .select ∧
    (∃ step, Step.compile table 0 ⟨"request", [("input", .null)]⟩ = .ok step ∧
      step.action.kind = .fetch .input) ∧
    table.step "news" = .ok .transformGroup ∧
    Step.compile table 0 newsInNews = .error (.unknownType .transform "news") ∧
      newsInNews.SeeksWithin table .transformGroup .transform "news" := by
  intro table
  obtain ⟨fetches, transforms, compiles⟩ :=
    lookups_agree (rfl : ofRegistrations renamings = table)
  have request : table.step "request" = .ok (.fetch .input) := rfl
  have input : table.step "input" = .ok (.transform .select) := rfl
  have news : table.step "news" = .ok .transformGroup := rfl
  have refused : Step.compile table 0 newsInNews = .error (.unknownType .transform "news") := rfl
  obtain ⟨step, compiled⟩ :
      ∃ step, Step.compile table 0 ⟨"request", [("input", .null)]⟩ = .ok step := ⟨_, rfl⟩
  have kind := (compiles 0 _).1 step compiled
  refine ⟨request, fetches _ _ request, input, transforms _ _ input, ⟨step, compiled, ?_⟩, news,
    refused, ?_⟩
  · exact Except.ok.inj (kind.symm.trans request)
  · exact ((compiles 0 newsInNews).2 _ _ _ news refused).1

example : ofRegistrations [.fetchTypes, .transformTypes, .sequenceTypes] = builtin := rfl

/-- A step of a fetch that is registered as nothing but a step is not backed. -/
example : (empty.registerStep "sun" (.fetch .input)).step "sun" = .ok (.fetch .input) ∧
    (empty.registerStep "sun" (.fetch .input)).fetch "sun" = .error (.unknownType .fetch "sun") :=
  ⟨rfl, rfl⟩

end DispatchTable

end Newsreel
