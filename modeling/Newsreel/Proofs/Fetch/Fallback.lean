import Newsreel.Proofs.Fetch.Journal
import Newsreel.Proofs.Fetch.Names
import Newsreel.Proofs.Fetch.Recall
import Newsreel.Proofs.Run.Testing

/-!
Snapshots that fall back on snapshots.

A fetch from memory may have another one for its alternative, and that one a further one. Such a
chain is walked from the outermost level on: the first level whose look does not miss decides, with
a value or with a failure, and nothing behind it is begun. Where all levels miss, what stands behind
the last one is begun, once.
-/

namespace Newsreel.Fetch

/-- A fetch from memory, apart from its alternative. -/
structure MemoryLevel where
  name : String
  apiKeyName : Option String := none
  useLast : Nat := 1
  timedelta : Option Float := none

namespace MemoryLevel

/-- The level with an alternative below it. -/
def above (level : MemoryLevel) (alternative : Option FetchSpec) : FetchSpec :=
  .mk .memory level.name level.apiKeyName (.memory level.useLast level.timedelta alternative)

/-- What the look of a level for its snapshot comes to. -/
def read (level : MemoryLevel) (surroundings : Surroundings) (config : JobConfig) (world : World) :
    Except StepError Value :=
  (remembered surroundings config level.name level.useLast level.timedelta world).1

/-- There is no snapshot for a level. -/
def Misses (level : MemoryLevel) (surroundings : Surroundings) (config : JobConfig)
    (world : World) : Prop :=
  ∃ miss, level.read surroundings config world = .error miss ∧ miss.isCacheMiss = true

/-- What a level does before it is known what comes of it. -/
def acts (level : MemoryLevel) (alternative : Option FetchSpec) : List Act :=
  [.begins (level.above alternative), .recalls level.name level.useLast level.timedelta]

/-- Levels, each the alternative of the one before, above a last alternative. -/
def stack : List MemoryLevel → Option FetchSpec → Option FetchSpec
  | [], last => last
  | level :: rest, last => some (level.above (stack rest last))

/-- The fetches of a stack, without the last alternative. -/
def fetches : List MemoryLevel → Option FetchSpec → List FetchSpec
  | [], _ => []
  | level :: rest, last => level.above (stack rest last) :: fetches rest last

/-- What the levels of a stack do on the way to its last alternative: each is begun once, and looks
once. -/
def actsAlong : List MemoryLevel → Option FetchSpec → List Act
  | [], _ => []
  | level :: rest, last => level.acts (stack rest last) ++ actsAlong rest last

/-- A failure told by some levels, the outermost one first. -/
def told (levels : List MemoryLevel) (error : StepError) : StepError :=
  FetchSpec.told (levels.map fun level => level.above none) error

end MemoryLevel

open MemoryLevel

variable {surroundings : Surroundings} {config : JobConfig} {context : Context} {scope : Scope}
  {world : World} {error : StepError}

/-! What a look for a snapshot comes to. -/

theorem MemoryLevel.read_error {level : MemoryLevel}
    (failure : level.read surroundings config world = .error error) :
    RecallFault level.timedelta error :=
  remembered_failsAs _ _ _ _ _ world error failure

theorem RecallFault.eq_cacheMiss {timedelta : Option Float} (fault : RecallFault timedelta error)
    (isMiss : error.isCacheMiss = true) : ∃ what, error = .cacheMiss what := by
  cases fault with
  | miss what => exact ⟨what, rfl⟩
  | unreadable fault => cases isMiss
  | malformed fault => cases isMiss
  | outOfRange asked => cases isMiss

/-! One level. -/

variable {level : MemoryLevel} {levels before after : List MemoryLevel}
  {alternative : Option FetchSpec} {last fetch : FetchSpec} {miss : StepError} {done : List Act}

theorem runNoted_above (level : MemoryLevel) (alternative : Option FetchSpec) (world : World)
    (done : List Act) :
    runNoted surroundings context scope (level.above alternative) ⟨world, done⟩ =
      Attempt.annotate (.fetch .memory level.name)
        (tryCatch (recallNoted surroundings context.config level.name level.useLast level.timedelta)
          fun error =>
            if error.isCacheMiss then
              runAlternativeNoted surroundings context scope error alternative
            else throw error)
        ⟨world, done ++ [.begins (level.above alternative)]⟩ := by
  rw [above, runNoted, runVariantNoted]
  rfl

/-- A level that has been begun looks for its snapshot and leaves the world as it is. -/
theorem recallNoted_run (surroundings : Surroundings) (config : JobConfig) (level : MemoryLevel)
    (alternative : Option FetchSpec) (world : World) (done : List Act) :
    recallNoted surroundings config level.name level.useLast level.timedelta
        ⟨world, done ++ [.begins (level.above alternative)]⟩ =
      (level.read surroundings config world, ⟨world, done ++ level.acts alternative⟩) := by
  have stays : (remembered surroundings config level.name level.useLast level.timedelta world).2 =
      world := remembered_snd _ _ _ _
  have noted : done ++ level.acts alternative = done ++ [.begins (level.above alternative)] ++
      [.recalls level.name level.useLast level.timedelta] := by
    rw [List.append_assoc]
    rfl
  refine Prod.ext rfl ?_
  rw [noted]
  exact congrArg (fun after => (⟨after, _⟩ : Journaled)) stays

/-- A look that does not miss decides. -/
theorem runNoted_decides (decides : ¬level.Misses surroundings context.config world)
    (alternative : Option FetchSpec) :
    runNoted surroundings context scope (level.above alternative) ⟨world, done⟩ =
      ((level.read surroundings context.config world).mapError (.fetch .memory level.name),
        ⟨world, done ++ level.acts alternative⟩) := by
  have looked := recallNoted_run surroundings context.config level alternative world done
  rw [runNoted_above, Attempt.annotate_run]
  cases read : level.read surroundings context.config world with
  | ok value =>
    rw [read] at looked
    rw [Attempt.tryCatch_run_ok looked]
  | error error =>
    rw [read] at looked
    have noMiss : ¬error.isCacheMiss = true := fun isMiss => decides ⟨error, read, isMiss⟩
    rw [Attempt.tryCatch_run_error looked, if_neg noMiss]
    rfl

/-- A look that misses leaves it to the alternative. -/
theorem runNoted_misses
    (missed : level.read surroundings context.config world = .error miss)
    (isMiss : miss.isCacheMiss = true) (alternative : Option FetchSpec) :
    runNoted surroundings context scope (level.above alternative) ⟨world, done⟩ =
      Attempt.annotate (.fetch .memory level.name)
        (runAlternativeNoted surroundings context scope miss alternative)
        ⟨world, done ++ level.acts alternative⟩ := by
  have looked := recallNoted_run surroundings context.config level alternative world done
  rw [missed] at looked
  rw [runNoted_above, Attempt.annotate_run, Attempt.annotate_run,
    Attempt.tryCatch_run_error looked, if_pos isMiss]

/-! A whole chain. -/

theorem stack_append (levels more : List MemoryLevel) (alternative : Option FetchSpec) :
    stack (levels ++ more) alternative = stack levels (stack more alternative) := by
  induction levels with
  | nil => rfl
  | cons level rest ih => rw [List.cons_append, stack, stack, ih]

theorem stack_some (levels : List MemoryLevel) (last : FetchSpec) :
    ∃ fetch, stack levels (some last) = some fetch := by
  cases levels with
  | nil => exact ⟨last, rfl⟩
  | cons level rest => exact ⟨_, rfl⟩

theorem actsAlong_append (levels more : List MemoryLevel) (alternative : Option FetchSpec) :
    actsAlong (levels ++ more) alternative =
      actsAlong levels (stack more alternative) ++ actsAlong more alternative := by
  induction levels with
  | nil => rfl
  | cons level rest ih =>
    rw [List.cons_append, actsAlong, actsAlong, ih, stack_append, List.append_assoc]

/-- Levels that all miss come down to the fetch below them. -/
theorem runNoted_stack (misses : ∀ level ∈ levels, level.Misses surroundings context.config world)
    (stacked : stack levels (some last) = some fetch) :
    runNoted surroundings context scope fetch ⟨world, done⟩ =
      Attempt.annotate (told levels) (runNoted surroundings context scope last)
        ⟨world, done ++ actsAlong levels (some last)⟩ := by
  -- On the levels: a miss adds what the level has done to the journal and its layer to the failure.
  induction levels generalizing fetch done with
  | nil =>
    cases stacked
    rw [actsAlong, List.append_nil, Attempt.annotate_run]
    rcases runNoted surroundings context scope last ⟨world, done⟩ with
      ⟨error | value, after⟩ <;> rfl
  | cons level rest ih =>
    cases stacked
    obtain ⟨⟨miss, missed, isMiss⟩, later⟩ := List.forall_mem_cons.mp misses
    obtain ⟨inner, below⟩ := stack_some rest last
    have inside : runNoted surroundings context scope inner
        ⟨world, done ++ level.acts (some inner)⟩ = _ := ih later below
    rw [runNoted_misses missed isMiss, below, runAlternativeNoted, Attempt.annotate_run, inside,
      Attempt.annotate_run, Attempt.annotate_run, actsAlong, below, List.append_assoc]
    rcases runNoted surroundings context scope last _ with ⟨error | value, after⟩ <;> rfl

/-! The fetches of a chain. -/

theorem mem_familyOf?_stack (within : fetch ∈ fetches levels alternative ++ alternative.toList) :
    fetch ∈ FetchSpec.familyOf? (stack levels alternative) := by
  induction levels with
  | nil =>
    obtain rfl : alternative = some fetch := Option.mem_toList.mp within
    exact mem_family_self fetch
  | cons level rest ih =>
    rw [fetches, List.cons_append, List.mem_cons] at within
    rw [stack, FetchSpec.familyOf?]
    rcases within with rfl | below
    · exact mem_family_self _
    · rw [above, FetchSpec.family, FetchVariant.nested]
      exact List.mem_cons_of_mem _ (ih below)

/-- The levels and what stands behind them are all different fetches. -/
theorem nodup_fetches (levels : List MemoryLevel) (alternative : Option FetchSpec) :
    (fetches levels alternative ++ alternative.toList).Nodup := by
  induction levels with
  | nil => cases alternative <;> simp [fetches]
  | cons level rest ih =>
    rw [fetches, List.cons_append, List.nodup_cons]
    refine ⟨fun within => not_nested_itself (level.above (stack rest alternative)) ?_, ih⟩
    rw [above, FetchSpec.variant, FetchVariant.nested]
    exact mem_familyOf?_stack within

theorem mapError_told (outcome : Except StepError Value) (levels : List MemoryLevel)
    (level : MemoryLevel) :
    (outcome.mapError (.fetch .memory level.name)).mapError (told levels) =
      outcome.mapError (told (levels ++ [level])) := by
  cases outcome with
  | ok value => rfl
  | error error =>
    rw [Except.mapError, Except.mapError, Except.mapError, told, told, FetchSpec.told,
      FetchSpec.told, List.map_append, List.foldr_append]
    rfl

theorem root_told (levels : List MemoryLevel) (error : StepError) :
    (told levels error).root = error.root := by
  induction levels with
  | nil => rfl
  | cons level rest ih => exact ih

theorem actsAlong_concat (levels : List MemoryLevel) (level : MemoryLevel)
    (alternative : Option FetchSpec) : actsAlong (levels ++ [level]) alternative =
      actsAlong levels (some (level.above alternative)) ++ level.acts alternative := by
  rw [actsAlong_append, actsAlong, actsAlong, List.append_nil]
  rfl

/-- The first level that does not miss decides. -/
theorem runNoted_chain_decides
    (stacked : stack (before ++ level :: after) alternative = some fetch)
    (misses : ∀ earlier ∈ before, earlier.Misses surroundings context.config world)
    (decides : ¬level.Misses surroundings context.config world) :
    runNoted surroundings context scope fetch ⟨world, done⟩ =
      ((level.read surroundings context.config world).mapError (told (before ++ [level])),
        ⟨world, done ++ actsAlong (before ++ [level]) (stack after alternative)⟩) := by
  rw [stack_append, stack] at stacked
  rw [runNoted_stack misses stacked, Attempt.annotate_run,
    runNoted_decides decides, mapError_told, actsAlong_concat,
    List.append_assoc]

/-- Where all levels miss and nothing stands behind them, the failure is that of the last one. -/
theorem runNoted_chain_misses (stacked : stack (levels ++ [level]) none = some fetch)
    (misses : ∀ earlier ∈ levels ++ [level],
      earlier.Misses surroundings context.config world) :
    ∃ what, runNoted surroundings context scope fetch ⟨world, done⟩ =
      (.error (told (levels ++ [level]) (.cacheMiss what)),
        ⟨world, done ++ actsAlong (levels ++ [level]) none⟩) := by
  obtain ⟨earlier, last⟩ := List.forall_mem_append.mp misses
  obtain ⟨miss, missed, isMiss⟩ := last level (List.mem_singleton_self level)
  obtain ⟨what, rfl⟩ := (MemoryLevel.read_error missed).eq_cacheMiss isMiss
  refine ⟨what, ?_⟩
  rw [stack_append, stack, stack] at stacked
  rw [runNoted_stack earlier stacked, Attempt.annotate_run,
    runNoted_misses missed isMiss, runAlternativeNoted,
    Attempt.annotate_run, actsAlong_concat, ← List.append_assoc]
  exact Prod.ext (mapError_told (.error _) levels level) rfl

/-- A chain of fetches from memory. The first look that does not miss decides: its value is the
value of the chain, its failure is told by all levels down to its own, and nothing below is begun.
Where all looks miss, the alternative below is begun once and its outcome is that of the chain, or
else the failure is a miss. Each level looks once. What fails a look without being a miss is a
snapshot that cannot be read or a time out of range. And a level goes by the name that is declared
nearest around it in the document, or else by the kind of the outermost fetch. -/
theorem chain_falls_back (surroundings : Surroundings) (context : Context) (scope : Scope)
    (world : World) (first : MemoryLevel) (rest : List MemoryLevel)
    (alternative : Option FetchSpec) :
    let levels := first :: rest
    let fetch := first.above (stack rest alternative)
    let noted := runNoted surroundings context scope fetch ⟨world, []⟩
    run surroundings context scope fetch world = (noted.1, noted.2.world) ∧
    (fetches levels alternative ++ alternative.toList).Nodup ∧
    (∀ before level after, levels = before ++ level :: after →
      (∀ earlier ∈ before, earlier.Misses surroundings context.config world) →
      ¬level.Misses surroundings context.config world →
        noted =
          ((level.read surroundings context.config world).mapError (told (before ++ [level])),
            ⟨world, actsAlong (before ++ [level]) (stack after alternative)⟩)) ∧
    ((∀ level ∈ levels, level.Misses surroundings context.config world) →
      (alternative = none → ∃ what,
        noted = (.error (told levels (.cacheMiss what)), ⟨world, actsAlong levels none⟩) ∧
        (told levels (.cacheMiss what)).root = .cacheMiss what) ∧
      ∀ last, alternative = some last → ∃ later,
        noted = ((run surroundings context scope last world).1.mapError (told levels),
          ⟨(run surroundings context scope last world).2,
            actsAlong levels alternative ++ .begins last :: later⟩) ∧
        .begins last ∉ later ∧ ∀ inner, .begins inner ∈ later → inner ∈ last.variant.nested) ∧
    (∀ level ∈ levels, ∀ error, level.read surroundings context.config world = .error error →
      RecallFault level.timedelta error) ∧
    ∀ (table : DispatchTable) (config : StepConfig) (document : Value) (spec : FetchSpec),
      FetchSpec.compile table none config = .ok spec → config.Represents document →
        ∀ turns inner, spec.at? turns = some inner →
          inner.name = (document.namesAlong turns).headD spec.kind.name := by
  intro levels fetch noted
  have stacked : stack levels alternative = some fetch := rfl
  refine ⟨?_, nodup_fetches levels alternative, ?_, fun misses => ⟨?_, ?_⟩, ?_, ?_⟩
  · obtain ⟨acts, ran, -⟩ := follows_runNoted surroundings context scope fetch ⟨world, []⟩
    rw [show noted = _ from ran]
    rfl
  · intro before level after split misses decides
    rw [split] at stacked
    exact runNoted_chain_decides stacked misses decides
  · rintro rfl
    obtain ⟨front, level, split⟩ : ∃ front level, levels = front ++ [level] :=
      ⟨_, _, (List.dropLast_append_getLast (List.cons_ne_nil first rest)).symm⟩
    rw [split] at stacked misses ⊢
    obtain ⟨what, ran⟩ : ∃ what, noted = (.error (told (front ++ [level]) (.cacheMiss what)),
        ⟨world, actsAlong (front ++ [level]) none⟩) := runNoted_chain_misses stacked misses
    exact ⟨what, ran, root_told _ _⟩
  · rintro last rfl
    obtain ⟨later, ran, once, begun⟩ := runNoted_begins surroundings context scope last
      ⟨world, actsAlong levels (some last)⟩
    refine ⟨later, ?_, once, begun⟩
    rw [show noted = _ from runNoted_stack misses stacked, List.nil_append, Attempt.annotate_run,
      ran]
  · exact fun level _ error failed => MemoryLevel.read_error failed
  · exact fun table config document spec compiled represents turns inner there =>
      FetchSpec.name_at compiled represents there

/-- A fetch that is the same in every weather. -/
def calm : FetchSpec := .mk .input "calm" none (.input (.string "calm"))

def wind : MemoryLevel := { name := "wind" }

def sky : MemoryLevel := { name := "sky" }

/-- A world with a file where the snapshots of the sky should lie. -/
def blockedSky : World where
  files := Files.Tree.withFile {}
    (Snapshots.directory ⟨rehearsal.config.memoryPath⟩ rehearsal.config.jobName "sky") "sun"

/-- Two snapshots and an input, with a name for the outermost fetch only. -/
def windDocument : StepConfig :=
  ⟨"request_memory", [("name", .string "wind"), ("alternative", .object
    [("type", .string "request_memory"), ("alternative", .object
      [("type", .string "input"), ("input", .string "calm")])])]⟩

/-- Without snapshots it is calm; a sky that cannot be looked up is told by both levels, and the
calm is not begun. -/
theorem chain_falls_back_calm :
    run Action.offline rehearsal Scope.root (wind.above (stack [sky] (some calm))) {} =
      (.ok (.string "calm"), {}) ∧
    runNoted Action.offline rehearsal Scope.root (wind.above (stack [sky] (some calm)))
        ⟨blockedSky, []⟩ =
      (.error (.fetch .memory "wind" (.fetch .memory "sky" (.file .notADirectory))),
        ⟨blockedSky, actsAlong [wind, sky] (some calm)⟩) ∧
    ∃ spec inner, FetchSpec.compile .builtin none windDocument = .ok spec ∧
      spec.at? [.alternative, .alternative] = some inner ∧ inner.name = "wind" := by
  have misses {world : World} (level : MemoryLevel) (newest : level.useLast = 1)
      (untimed : level.timedelta = none)
      (missing : world.files.list (Snapshots.directory ⟨rehearsal.config.memoryPath⟩
        rehearsal.config.jobName level.name) = .error .notFound) :
      level.Misses Action.offline rehearsal.config world := by
    refine ⟨.cacheMiss (rehearsal.config.jobName ++ "/" ++ level.name), ?_, rfl⟩
    rw [MemoryLevel.read, untimed, newest]
    exact congrArg Prod.fst (Snapshots.readLast_missing missing 1)
  refine ⟨?_, ?_, ?_⟩
  · obtain ⟨same, -, -, missed, -, -⟩ :=
      chain_falls_back Action.offline rehearsal Scope.root {} wind [sky] (some calm)
    have both : ∀ level ∈ [wind, sky], level.Misses Action.offline rehearsal.config {} := by
      simp only [List.forall_mem_cons]
      exact ⟨misses wind rfl rfl (by decide +kernel), misses sky rfl rfl (by decide +kernel), nofun⟩
    obtain ⟨later, ran, -⟩ := (missed both).2 calm rfl
    rw [same, ran, calm, run, runVariant]
    rfl
  · obtain ⟨-, -, decides, -, -, -⟩ :=
      chain_falls_back Action.offline rehearsal Scope.root blockedSky wind [sky] (some calm)
    have blocked : blockedSky.files.list (Snapshots.directory ⟨rehearsal.config.memoryPath⟩
        rehearsal.config.jobName "sky") = .error .notADirectory := by
      decide +kernel
    have unlisted : Snapshots.entries ⟨rehearsal.config.memoryPath⟩ rehearsal.config.jobName "sky"
        blockedSky = (.error (.file .notADirectory), blockedSky) := by
      simp only [Snapshots.entries, Attempt.look, blocked]
    have failed : sky.read Action.offline rehearsal.config blockedSky =
        .error (.file .notADirectory) := congrArg Prod.fst (Attempt.bind_run_error unlisted)
    have noMiss : ¬sky.Misses Action.offline rehearsal.config blockedSky := by
      rintro ⟨miss, missed, isMiss⟩
      rw [failed] at missed
      cases missed
      cases isMiss
    rw [decides [wind] sky [] rfl _ noMiss, failed]
    · rfl
    · rw [List.forall_mem_singleton]
      exact misses wind rfl rfl (by decide +kernel)
  · obtain ⟨-, -, -, -, -, named⟩ :=
      chain_falls_back Action.offline rehearsal Scope.root {} wind [] none
    refine ⟨_, _, rfl, rfl, ?_⟩
    exact named .builtin windDocument _ _ rfl windDocument.represents_toValue
      [.alternative, .alternative] _ rfl

end Newsreel.Fetch
