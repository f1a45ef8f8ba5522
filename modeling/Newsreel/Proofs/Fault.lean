import Newsreel.Fetch.Run
import Newsreel.Media.Timeline

/-!
Faults of documents and faults of runs.

A type that is in no table and parameters that do not fit their type are found when a document is
compiled. Nothing that paths, templates, loops, transforms, requests and timelines give back once a
document is compiled has such a fault as its cause; the layers around a failure leave its cause.
Nor do they put layers around what they give back: that is left to the steps that call on them.
-/

namespace Newsreel

/-- The cause is one that the compilation of a document looks for. -/
def StepError.isOfDocument (error : StepError) : Bool := match error.root with
  | .unknownType _ _ | .invalidStep _ _ => true
  | _ => false

theorem StepError.isOfDocument_congr {error other : StepError} (same : error.root = other.root) :
    error.isOfDocument = other.isOfDocument := by
  rw [isOfDocument, isOfDocument, same]

/-- The error is a layer around another one. -/
def StepError.isLayer : StepError → Bool
  | .fetch _ _ _ | .transform _ _ _ | .sequence _ _ => true
  | _ => false

/-- The error is a cause without a layer around it, and none that compilation looks for. -/
def StepError.isBare : StepError → Bool
  | .fetch _ _ _ | .transform _ _ _ | .sequence _ _ | .unknownType _ _ | .invalidStep _ _ => false
  | _ => true

/-- The error is that a path leads nowhere, that a value is of no use or that a credential is
missing. -/
def StepError.isLookup : StepError → Bool
  | .unresolved _ | .invalidValue _ _ | .missingApiKey _ => true
  | _ => false

namespace StepError

variable {error : StepError}

theorem root_of_unlayered (unlayered : error.isLayer = false) : error.root = error := by
  cases error <;> first | rfl | cases unlayered

theorem isLayer_of_isBare (bare : error.isBare = true) : error.isLayer = false := by
  cases error <;> first | rfl | cases bare

theorem isBare_of_isLookup (lookup : error.isLookup = true) : error.isBare = true := by
  cases error <;> first | rfl | cases lookup

theorem isAbort_of_isLookup (lookup : error.isLookup = true) : error.isAbort = false := by
  cases error <;> first | rfl | cases lookup

theorem isOfDocument_of_isBare (bare : error.isBare = true) : error.isOfDocument = false := by
  cases error <;> first | rfl | cases bare

end StepError

namespace Outcome

variable {α β : Type}

/-- What stops the work, if anything does, is no fault of the document. -/
def AtRuntime (outcome : Except StepError α) : Prop :=
  ∀ error, outcome = .error error → error.isOfDocument = false

theorem atRuntime_ok (a : α) : AtRuntime (.ok a) := by
  intro error failed
  cases failed

theorem atRuntime_error {error : StepError} (cause : error.isOfDocument = false) :
    AtRuntime (.error error : Except StepError α) := by
  intro other failed
  cases failed
  exact cause

/-- What work that gives an outcome can fail with. -/
def FailsAs (fault : StepError → Prop) (outcome : Except StepError α) : Prop :=
  ∀ error, outcome = .error error → fault error

section FailsAs

variable {fault : StepError → Prop}

theorem failsAs_ok (a : α) : FailsAs fault (.ok a) := by
  intro error failed
  cases failed

theorem failsAs_error {error : StepError} (known : fault error) :
    FailsAs fault (.error error : Except StepError α) := by
  intro other failed
  cases failed
  exact known

theorem FailsAs.bind_ok {first : Except StepError α} {next : α → Except StepError β}
    (begins : FailsAs fault first) (later : ∀ a, first = .ok a → FailsAs fault (next a)) :
    FailsAs fault (first >>= next) := by
  cases first with
  | error source => exact failsAs_error (begins source rfl)
  | ok a => exact later a rfl

theorem FailsAs.bind {first : Except StepError α} {next : α → Except StepError β}
    (begins : FailsAs fault first) (later : ∀ a, FailsAs fault (next a)) :
    FailsAs fault (first >>= next) := begins.bind_ok fun a _ => later a

theorem FailsAs.mapM {f : α → Except StepError β} {items : List α}
    (each : ∀ item ∈ items, FailsAs fault (f item)) : FailsAs fault (items.mapM f) := by
  induction items with
  | nil => exact failsAs_ok []
  | cons item rest ih =>
    rw [List.mapM_cons]
    have others := ih fun other listed => each other (List.mem_cons_of_mem _ listed)
    exact (each item List.mem_cons_self).bind fun _ => others.bind fun _ => failsAs_ok _

theorem FailsAs.map {outcome : Except StepError α} (f : α → β) (failsAs : FailsAs fault outcome) :
    FailsAs fault (outcome.map f) := by
  intro error failed
  cases outcome with
  | error source =>
    cases failed
    exact failsAs _ rfl
  | ok a => cases failed

end FailsAs

/-- What stops the work, if anything does, is a cause without a layer around it, and no fault of the
document. -/
def Bare (outcome : Except StepError α) : Prop := FailsAs (fun error => error.isBare = true) outcome

theorem bare_ok (a : α) : Bare (.ok a) := failsAs_ok a

theorem bare_error {error : StepError} (cause : error.isBare = true) :
    Bare (.error error : Except StepError α) := failsAs_error cause

variable {outcome : Except StepError α}

/-- What allows for every bare cause allows for this one. -/
theorem Bare.failsAs {fault : StepError → Prop} (bare : Bare outcome)
    (covers : ∀ error, error.isBare = true → fault error) : FailsAs fault outcome :=
  fun error failed => covers error (bare error failed)

theorem Bare.atRuntime (bare : Bare outcome) : AtRuntime outcome :=
  bare.failsAs fun _ => StepError.isOfDocument_of_isBare

/-- What stops the work, if anything does, is a path, a value or a missing credential. -/
def LooksUp (outcome : Except StepError α) : Prop :=
  FailsAs (fun error => error.isLookup = true) outcome

theorem LooksUp.bare (looksUp : LooksUp outcome) : Bare outcome :=
  fun error failed => StepError.isBare_of_isLookup (looksUp error failed)

end Outcome

open Outcome

/-! Paths and what lies at them. -/

theorem Path.split_looksUp (path : String) : LooksUp (split path) := by
  rw [split]
  split
  · exact failsAs_error rfl
  · exact failsAs_ok _

theorem Value.put_bare (path : String) (new : Value) (segments : List String)
    (value : Value) : Bare (put path new segments value).1 := by
  induction segments generalizing value with
  | nil => exact bare_ok ()
  | cons segment rest ih =>
    rw [put]
    split
    · exact ih _
    · split
      · exact bare_error rfl
      · split
        · exact ih _
        · split
          · exact bare_ok ()
          · exact bare_error rfl
    · dsimp only
      split <;> exact bare_error rfl

theorem Template.parse_looksUp (template : String) : LooksUp (parse template) := by
  rw [parse]
  split
  · exact failsAs_ok _
  · exact failsAs_error rfl

namespace Context

variable (context : Context) (path : String) (scope : Scope)

theorem replaceHead_failed {target : String} {rest : List String} {error : StepError}
    (failed : replaceHead target rest = .failed error) : error.isLookup = true := by
  rw [replaceHead] at failed
  split at failed
  · cases failed
  · next wrong =>
    cases failed
    exact Path.split_looksUp target error wrong

theorem expand_failed {segments : List String} {error : StepError}
    (failed : context.expand path scope segments = .failed error) :
    error.isLookup = true := by
  unfold expand at failed
  split at failed
  · cases failed
  · split at failed
    · cases failed
    · cases failed
      rfl
  · split at failed
    · exact replaceHead_failed failed
    · cases failed
      rfl
  · split at failed
    · cases failed
      rfl
    · split at failed
      · exact replaceHead_failed failed
      · cases failed
      · cases failed
        rfl
  · cases failed
  · cases failed
  · cases failed

theorem locateWithin_looksUp (steps : Nat) (segments : List String) :
    LooksUp (context.locateWithin path scope steps segments) := by
  induction steps generalizing segments with
  | zero => exact failsAs_error rfl
  | succ steps ih =>
    rw [locateWithin]
    split
    · exact failsAs_ok _
    · next failed => exact failsAs_error (context.expand_failed path scope failed)
    · exact ih _

theorem locate_looksUp : LooksUp (context.locate path scope) :=
  (Path.split_looksUp path).bind fun segments =>
    context.locateWithin_looksUp path scope _ segments

theorem read_looksUp (location : Location) : LooksUp (context.read path location) := by
  cases location with
  | data segments =>
    rw [read]
    split
    · exact failsAs_ok _
    · exact failsAs_error rfl
  | detached value rest =>
    rw [read]
    split
    · exact failsAs_ok _
    · exact failsAs_error rfl
  | index n => exact failsAs_ok _

theorem get_looksUp : LooksUp (context.get path scope) :=
  (context.locate_looksUp path scope).bind fun location => context.read_looksUp path location

theorem get_bare : Bare (context.get path scope) := (context.get_looksUp path scope).bare

theorem insert_bare (value : Value) : Bare (context.insert path value scope).1 := by
  rw [insert]
  split
  · next failed => exact bare_error ((context.locate_looksUp path scope).bare _ failed)
  · exact bare_error rfl
  · exact Value.put_bare path value _ context.data
  · exact bare_error rfl
  · exact bare_error rfl

/-! Templates. -/

variable (apiKeyName : Option String)

theorem resolve_looksUp (placeholder : Placeholder) :
    LooksUp (context.resolve apiKeyName scope placeholder) := by
  unfold resolve
  split
  · split
    · exact failsAs_error rfl
    · split
      · exact failsAs_ok _
      · exact failsAs_error rfl
  · exact context.get_looksUp _ scope

theorem partText_bare (part : Part) : Bare (context.partText apiKeyName scope part) := by
  cases part with
  | literal text => exact bare_ok text
  | placeholder p =>
    refine (context.resolve_looksUp scope apiKeyName p).bare.bind fun value => ?_
    unfold Placeholder.render
    split
    · split
      · exact bare_error rfl
      · exact bare_ok _
    · exact bare_ok _

theorem partsText_bare (parts : List Part) :
    Bare (context.partsText apiKeyName scope parts) := by
  induction parts with
  | nil => exact bare_ok ""
  | cons part rest ih =>
    exact (context.partText_bare scope apiKeyName part).bind fun _ =>
      ih.bind fun _ => bare_ok _

theorem formatTemplate_bare (template : String) :
    Bare (context.formatTemplate apiKeyName scope template) := by
  rw [formatTemplate]
  split
  · refine (Template.parse_looksUp template).bare.bind fun parts => ?_
    split
    · exact (context.resolve_looksUp scope apiKeyName _).bare
    · exact (context.partsText_bare scope apiKeyName parts).bind fun _ => bare_ok _
  · exact bare_ok _

theorem formatWithKey_bare (value : Value) :
    Bare (context.formatWithKey apiKeyName scope value) := by
  cases value with
  | string template => exact context.formatTemplate_bare scope apiKeyName template
  | _ => exact bare_ok _

theorem format_bare (value : Value) : Bare (context.format scope value) :=
  context.formatWithKey_bare scope none value

theorem formatString_bare (template : String) :
    Bare (context.formatString apiKeyName scope template) :=
  (context.formatTemplate_bare scope apiKeyName template).map _

theorem formatText_bare (value : Value) : Bare (context.formatText scope value) :=
  (context.format_bare scope value).map _

mutual
theorem deepFormat_bare : (value : Value) →
    Bare (context.deepFormat apiKeyName scope value)
  | .null => bare_ok _
  | .bool _ => bare_ok _
  | .number _ => bare_ok _
  | .string template => context.formatTemplate_bare scope apiKeyName template
  | .array items => by
    rw [deepFormat]
    exact (deepFormatItems_bare items).bind fun _ => bare_ok _
  | .object fields => by
    rw [deepFormat]
    exact (deepFormatFields_bare fields).bind fun _ => bare_ok _

theorem deepFormatItems_bare : (items : List Value) →
    Bare (context.deepFormatItems apiKeyName scope items)
  | [] => bare_ok []
  | item :: items => by
    rw [deepFormatItems]
    exact (deepFormat_bare item).bind fun _ =>
      (deepFormatItems_bare items).bind fun _ => bare_ok _

theorem deepFormatFields_bare : (fields : List (String × Value)) →
    Bare (context.deepFormatFields apiKeyName scope fields)
  | [] => bare_ok []
  | (_, value) :: fields => by
    rw [deepFormatFields]
    exact (deepFormat_bare value).bind fun _ =>
      (deepFormatFields_bare fields).bind fun _ => bare_ok _
end

/-! Loops. -/

theorem arrayItems_bare (array : Value) : Bare (context.arrayItems array scope) := by
  cases array with
  | string spec =>
    exact (context.locate_looksUp _ scope).bare.bind fun _ =>
      (context.get_bare _ scope).bind fun _ => bare_ok _
  | array items =>
    exact (context.deepFormat_bare scope none (.array items)).bind fun _ => bare_ok _
  | _ => exact bare_error rfl

theorem iterations_bare (array : Value) (loopId : String) :
    Bare (context.iterations array loopId scope) := by
  refine (context.arrayItems_bare scope array).bind fun (found, base) => ?_
  cases found with
  | array items => exact bare_ok _
  | _ => exact bare_error rfl

end Context

/-! Transforms. -/

namespace Transform

variable (context : Context) (scope : Scope)

theorem textAt_bare (key : String) : Bare (textAt context key scope) := by
  refine (context.get_bare key scope).bind fun value => ?_
  cases value with
  | string s => exact bare_ok s
  | _ => exact bare_error rfl

theorem asCount_bare (value : Value) : Bare (asCount value) := by
  rw [asCount.eq_def]
  split
  · split
    · exact bare_ok _
    · exact bare_error rfl
  · split
    · exact bare_ok _
    · exact bare_error rfl
  · exact bare_ok _
  · exact bare_error rfl

theorem dateOf_bare (value format : String) : Bare (dateOf value format) := by
  rw [dateOf]
  split
  · exact bare_ok _
  · exact bare_error rfl

theorem entry_bare (dict : Fields) (token : String) (place : Nat) :
    Bare (entry dict token place) := by
  rw [entry]
  split
  · split
    · exact bare_ok _
    · exact bare_error rfl
  · exact bare_error rfl

theorem windDirection_bare (value delimiter : String) (dict : Fields) :
    Bare (windDirection context value delimiter dict scope) := by
  unfold windDirection
  dsimp only
  split
  · exact (entry_bare dict _ 0).bind fun _ =>
      (context.formatText_bare scope _).bind fun _ =>
        (entry_bare dict _ 0).bind fun _ =>
          (context.formatText_bare scope _).bind fun _ => bare_ok _
  · exact (entry_bare dict value 2).bind fun _ => context.formatText_bare scope _

theorem chosen_bare (value : String) (choices : Value) (dict : Fields) (pick : Nat → Nat) :
    Bare (chosen context value choices dict scope pick) := by
  rw [chosen.eq_def]
  split
  · split
    · exact bare_error rfl
    · dsimp only
      split
      · split
        · exact context.format_bare scope _
        · exact bare_error rfl
      · exact bare_error rfl
  · exact bare_error rfl

theorem outcome_bare (chance : Chance) (key : String) (op : TransformOp) :
    Bare (outcome chance context key scope op) := by
  have text := textAt_bare context scope key
  cases op with
  | addSymbol pattern => exact context.format_bare scope pattern
  | replace oldValue newValue count =>
    exact text.bind fun _ => (context.formatText_bare scope oldValue).bind fun _ =>
      (context.formatText_bare scope newValue).bind fun _ =>
        (context.format_bare scope count).bind fun _ =>
          (asCount_bare _).bind fun _ => bare_ok _
  | dateFormat format | dateWeekday format | dateNow format =>
    exact text.bind fun _ => (context.formatText_bare scope format).bind fun _ =>
      (dateOf_bare _ _).bind fun _ => bare_ok _
  | windDirection delimiter dict =>
    exact text.bind fun _ => (context.formatText_bare scope delimiter).bind fun _ =>
      (windDirection_bare context scope _ _ dict).bind fun _ => bare_ok _
  | chooseRandom choice dict =>
    exact (context.get_bare key scope).bind fun _ =>
      (context.format_bare scope choice).bind fun _ =>
        chosen_bare context scope _ _ dict _
  | each array transformation => exact bare_ok _
  | select keys => exact bare_ok _
  | unimplemented => exact bare_ok _

end Transform

/-! Requests. -/

namespace RequestSpec

variable (context : Context) (apiKeyName : Option String) (scope : Scope)

theorem formatPairs_bare (field : String) (value : Option Value) :
    Bare (formatPairs context apiKeyName scope field value) := by
  cases value with
  | none => exact bare_ok []
  | some value =>
    refine (context.deepFormat_bare scope apiKeyName value).bind fun found => ?_
    cases found with
    | object fields => exact bare_ok _
    | null => exact bare_ok _
    | _ => exact bare_error rfl

theorem encode_bare (text label : String) : Bare (Web.encode text label) := by
  rw [Web.encode]
  split
  · next charset _ =>
    cases charset.encode text with
    | ok bytes => exact bare_ok bytes
    | error fault => exact bare_error rfl
  · exact bare_error rfl

theorem buildBody_bare (spec : RequestSpec) :
    Bare (spec.buildBody context apiKeyName scope) := by
  refine (context.formatText_bare scope spec.bodyType).bind fun type => ?_
  split
  · exact bare_ok _
  · split
    · exact (context.deepFormat_bare scope apiKeyName _).bind fun _ => bare_ok _
    · refine (context.formatWithKey_bare scope apiKeyName _).bind fun value => ?_
      dsimp only
      split
      · exact (encode_bare _ _).bind fun _ => bare_ok _
      · exact bare_ok _

theorem pieces_bare (array : ParamsArray) (iterations : List Iteration) :
    Bare (array.pieces context apiKeyName iterations) := by
  induction iterations with
  | nil => exact bare_ok []
  | cons iteration rest ih =>
    exact (context.formatString_bare iteration.scope apiKeyName array.pattern).bind fun _ =>
      (context.formatString_bare iteration.scope apiKeyName array.delimiter).bind fun _ =>
        ih.bind fun _ => bare_ok _

theorem extend_bare (params : List (String × String)) (arrays : List ParamsArray) :
    Bare (ParamsArray.extend context apiKeyName scope params arrays) := by
  induction arrays generalizing params with
  | nil => exact bare_ok params
  | cons array rest ih =>
    have joins : Bare (array.join context apiKeyName scope) :=
      (context.iterations_bare scope array.array "params_array").bind fun iterations =>
        (pieces_bare context apiKeyName array iterations).bind fun _ => bare_ok _
    exact joins.bind fun _ => ih _

theorem build_bare (spec : RequestSpec) : Bare (spec.build context apiKeyName scope) := by
  have method : Bare (spec.buildMethod context scope) := by
    refine (context.formatText_bare scope spec.method).bind fun name => ?_
    dsimp only
    split
    · exact bare_ok _
    · exact bare_error rfl
  exact method.bind fun _ =>
    (formatPairs_bare context apiKeyName scope "headers" _).bind fun _ =>
      (buildBody_bare context apiKeyName scope spec).bind fun _ =>
        (context.formatString_bare scope apiKeyName spec.urlPattern).bind fun _ =>
          (formatPairs_bare context apiKeyName scope "params" _).bind fun _ =>
            (extend_bare context apiKeyName scope _ _).bind fun _ =>
              (context.formatText_bare scope spec.responseFormat).bind fun _ =>
                bare_ok _

end RequestSpec

theorem Web.Response.value_bare (response : Response) (request : Request) :
    Bare (response.value request) := by
  rw [value]
  split
  · split
    · exact bare_error rfl
    · split <;> exact bare_ok _
  · exact bare_error rfl

/-! Timelines. -/

namespace Timeline

variable {τ : Type} (context : Context) (scope : Scope)

theorem namedPath_bare (files : Fields) (field : String) (name : Value) :
    Bare (namedPath context scope files field name) := by
  refine (context.formatText_bare scope name).bind fun text => ?_
  split
  · exact context.formatText_bare scope _
  · exact bare_error rfl

theorem seconds_bare (reckoning : Reckoning τ) (value : Value) :
    Bare (seconds reckoning value) := by
  rw [seconds.eq_def]
  split
  · exact bare_ok _
  · split
    · exact bare_ok _
    · exact bare_error rfl
  · exact bare_error rfl

theorem pairClips_bare (templates : List Value) (durations : List τ) :
    Bare (pairClips context scope templates durations) := by
  induction templates generalizing durations with
  | nil =>
    rw [pairClips]
    · exact bare_ok []
    · nofun
  | cons template rest ih =>
    cases durations with
    | nil =>
      rw [pairClips]
      · exact bare_ok []
      · nofun
    | cons duration durations =>
      rw [pairClips]
      exact (context.formatText_bare scope template).bind fun _ =>
        (ih durations).bind fun _ => bare_ok _

section Measured

variable {fault : StepError → Prop} {measure : String → Except StepError τ}
  (covers : ∀ error, error.isBare = true → fault error)
  (measures : ∀ path, FailsAs fault (measure path))

include covers measures

theorem measured_failsAs (templates : List Value) :
    FailsAs fault (measured measure context scope templates) := by
  induction templates with
  | nil => exact failsAs_ok []
  | cons template rest ih =>
    exact ((context.formatText_bare scope template).failsAs covers).bind fun path =>
      (measures path).bind fun _ => ih.bind fun _ => failsAs_ok _

theorem entry_failsAs (reckoning : Reckoning τ) (spec : SequenceSpec) (first : PatternEntry) :
    FailsAs fault (entry reckoning measure context scope spec first) := by
  obtain ⟨image, audio, timeDiff⟩ := first
  have path (files : Fields) (field : String) (name : Value) :
      FailsAs fault (namedPath context scope files field name) :=
    (namedPath_bare context scope files field name).failsAs covers
  refine (path spec.images "images" image).bind fun _ => ?_
  -- The seconds are known before the clip is measured, with or without either of them.
  cases timeDiff with
  | none =>
    cases audio with
    | none => exact (failsAs_ok reckoning.zero).bind fun _ => failsAs_ok _
    | some name =>
      exact (failsAs_ok reckoning.zero).bind fun _ => (path _ _ name).bind fun audio =>
        (measures audio).bind fun _ => failsAs_ok _
  | some timeDiff =>
    have value := (context.format_bare scope timeDiff).failsAs covers
    cases audio with
    | none =>
      exact value.bind fun value =>
        ((seconds_bare reckoning value).failsAs covers).bind fun _ => failsAs_ok _
    | some name =>
      exact value.bind fun value =>
        ((seconds_bare reckoning value).failsAs covers).bind fun _ =>
          (path _ _ name).bind fun audio => (measures audio).bind fun _ => failsAs_ok _

theorem entries_failsAs (reckoning : Reckoning τ) (spec : SequenceSpec)
    (pattern : List PatternEntry) :
    FailsAs fault (entries reckoning measure context scope spec pattern) := by
  induction pattern with
  | nil => exact failsAs_ok _
  | cons first rest ih =>
    exact (entry_failsAs context scope covers measures reckoning spec first).bind fun _ =>
      ih.bind fun _ => failsAs_ok _

/-- A timeline cannot be built for want of a value, or because a clip could not be measured. -/
theorem build_failsAs (reckoning : Reckoning τ) (spec : SequenceSpec) :
    FailsAs fault (build reckoning measure context scope spec) := by
  rw [build]
  split
  · refine (measured_failsAs context scope covers measures _).bind fun audios => ?_
    split
    · exact (bare_error rfl).failsAs covers
    · exact ((pairClips_bare context scope _ _).failsAs covers).bind fun _ => failsAs_ok _
  · exact entries_failsAs context scope covers measures reckoning spec _

end Measured

end Timeline

end Newsreel
