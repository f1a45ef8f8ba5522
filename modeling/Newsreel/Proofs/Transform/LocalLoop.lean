import Newsreel.Proofs.Attempt
import Newsreel.Proofs.Context.Local
import Newsreel.Proofs.Context.Loop
import Newsreel.Proofs.Context.ReadWrite
import Newsreel.Transform.Apply

/-!
Loops whose body keeps to the item at hand.

The iterations of a loop work one after the other on one tree of data, each on what the ones before
have left, and through paths that are looked up again at every use. When the nested transforms read
and write only through `_loop` the order shows nowhere: the loop does to every item what it would do
to it in an array of its own.
-/

namespace Newsreel

/-- What stands in the lists of a dictionary. -/
def Fields.listed (dict : Fields) : List Value :=
  dict.flatMap fun
    | (_, .array items) => items
    | _ => []

/-- Operations that ask neither the clock nor chance, with their templates. -/
inductive TransformOp.Templated : TransformOp → List Value → Prop where
  | addSymbol (pattern : Value) : Templated (.addSymbol pattern) [pattern]
  | replace (oldValue newValue count : Value) :
      Templated (.replace oldValue newValue count) [oldValue, newValue, count]
  | dateFormat (format : Value) : Templated (.dateFormat format) [format]
  | dateWeekday (format : Value) : Templated (.dateWeekday format) [format]
  | windDirection (delimiter : Value) (dict : Fields) :
      Templated (.windDirection delimiter dict) (delimiter :: dict.listed)

/-- A transform that reads and writes nothing but the item at hand, the configuration and the id of
the run. -/
structure TransformSpec.IsLocal (spec : TransformSpec) : Prop where
  keys : ∀ key ∈ spec.keys, Path.HeadIn ["_loop"] key
  newKeys : ∀ newKeys, spec.newKeys = some newKeys → ∀ key ∈ newKeys, Path.HeadIn ["_loop"] key
  templates : ∃ templates, spec.op.Templated templates ∧
    ∀ template ∈ templates, template.LocalTemplate

/-- The items of the array at a place. -/
def Context.itemsAt (context : Context) (segments : List String) : List Value :=
  match context.data.at? segments with
  | some (.array items) => items
  | _ => []

namespace Transform

open Context

/-- Two pieces of work end alike and do the same to equal items, each at its place. -/
def Alike (place otherPlace : List String) (work twin : Edit Unit) : Prop :=
  ∀ context other item, SameItem context other place otherPlace item →
    ∃ outcome changed, work context = (outcome, context.overwrite place changed) ∧
      twin other = (outcome, other.overwrite otherPlace changed)

/-- Work in a scope that keeps to the item which `_loop` leads to. -/
def LocalBody (body : Scope → Edit Unit) : Prop :=
  ∀ (scope otherScope : Scope) (place otherPlace : List String), scope.AtPlace place →
    otherScope.AtPlace otherPlace → Alike place otherPlace (body scope) (body otherScope)

section Alike

variable {place otherPlace : List String} {work twin next nextTwin : Edit Unit}

theorem Alike.pure : Alike place otherPlace (pure ()) (pure ()) := by
  intro context other item same
  exact ⟨.ok (), item, by rw [overwrite_held same.held]; rfl,
    by rw [overwrite_held same.heldOther]; rfl⟩

theorem Alike.andThen (first : Alike place otherPlace work twin)
    (second : Alike place otherPlace next nextTwin) :
    Alike place otherPlace (work >>= fun _ => next) (twin >>= fun _ => nextTwin) := by
  intro context other item same
  obtain ⟨outcome, between, here, there⟩ := first context other item same
  cases outcome with
  | error error =>
    exact ⟨.error error, between, Attempt.bind_run_error here, Attempt.bind_run_error there⟩
  | ok =>
    obtain ⟨outcome, changed, here', there'⟩ := second _ _ between (same.overwrite between)
    rw [overwrite_overwrite] at here' there'
    exact ⟨outcome, changed, by rw [Attempt.bind_run_ok here, here'],
      by rw [Attempt.bind_run_ok there, there']⟩

theorem Alike.annotate (alike : Alike place otherPlace work twin)
    (layer : StepError → StepError) :
    Alike place otherPlace (Attempt.annotate layer work) (Attempt.annotate layer twin) := by
  intro context other item same
  obtain ⟨outcome, changed, here, there⟩ := alike context other item same
  cases outcome with
  | error error =>
    exact ⟨.error (layer error), changed, Attempt.annotate_error_iff.mpr ⟨error, here, rfl⟩,
      Attempt.annotate_error_iff.mpr ⟨error, there, rfl⟩⟩
  | ok =>
    exact ⟨.ok (), changed, Attempt.annotate_ok_iff.mpr here, Attempt.annotate_ok_iff.mpr there⟩

end Alike

/-! One key. -/

theorem atKey_keyScope {scope : Scope} {place : List String} (around : scope.AtPlace place)
    (kind : TransformKind) (index : Nat) (key : String) :
    (keyScope kind scope index key).AtKey place key index := by
  refine ⟨around.child rfl, ?_, ?_⟩
  · simp [keyScope, Scope.saveKey, Scope.child, Scope.key?, Scope.frames]
  · simp [keyScope, Scope.saveKey, Scope.child, Scope.index?, Scope.frames]

theorem mem_listed_of_entry {dict : Fields} {token : String} {index : Nat} {template : Value}
    (found : entry dict token index = .ok template) : template ∈ Fields.listed dict := by
  unfold entry at found
  split at found
  · next items listed =>
    split at found
    · next value present =>
      cases found
      exact List.mem_flatMap.mpr
        ⟨(token, .array items), Fields.mem_of_find? listed, List.mem_of_getElem? present⟩
    · cases found
  · cases found

section Key

variable {context other : Context} {scope otherScope : Scope} {place otherPlace : List String}
  {item : Value} {key : String} {index : Nat}

theorem textAt_alike (same : SameItem context other place otherPlace item)
    (here : scope.AtKey place key index) (there : otherScope.AtKey otherPlace key index)
    (keyLocal : Path.HeadIn ["_loop"] key) :
    textAt context key scope = textAt other key otherScope := by
  have isLocal : Path.HeadIn reservedHeads key := fun head rest read => by
    rw [List.mem_singleton.mp (keyLocal head rest read)]
    decide
  rw [textAt, textAt, get_alike same here there keyLocal isLocal]

theorem windDirection_alike (same : SameItem context other place otherPlace item)
    (here : scope.AtKey place key index) (there : otherScope.AtKey otherPlace key index)
    (keyLocal : Path.HeadIn ["_loop"] key) {dict : Fields}
    (isLocal : ∀ template ∈ dict.listed, template.LocalTemplate) (value delimiter : String) :
    windDirection context value delimiter dict scope =
      windDirection other value delimiter dict otherScope := by
  have words {token : String} {index : Nat} {template : Value}
      (found : entry dict token index = .ok template) :
      context.formatText scope template = other.formatText otherScope template :=
    formatText_alike same here there keyLocal (isLocal template (mem_listed_of_entry found))
  have single : (do context.formatText scope (← entry dict value 2)) =
      (do other.formatText otherScope (← entry dict value 2)) := by
    cases found : entry dict value 2 with
    | error error => simp only [bind, Except.bind]
    | ok template => exact words found
  simp only [windDirection]
  split
  · next first second _ _ =>
    cases found : entry dict first 0 with
    | error error => simp only [bind, Except.bind]
    | ok template =>
      cases foundSecond : entry dict second 0 with
      | error error => simp only [bind, Except.bind, words found]
      | ok secondTemplate => simp only [bind, Except.bind, words found, words foundSecond]
  · exact single

/-- What is written for a key depends on nothing but the item. -/
theorem outcome_alike (same : SameItem context other place otherPlace item)
    (here : scope.AtKey place key index) (there : otherScope.AtKey otherPlace key index)
    (keyLocal : Path.HeadIn ["_loop"] key) {op : TransformOp} {templates : List Value}
    (templated : op.Templated templates)
    (isLocal : ∀ template ∈ templates, template.LocalTemplate) (chance : Chance) :
    outcome chance context key scope op = outcome chance other key otherScope op := by
  have text := textAt_alike same here there keyLocal
  have formatted (template : Value) (member : template ∈ templates) :=
    format_alike same here there keyLocal (isLocal template member)
  have words (template : Value) (member : template ∈ templates) :=
    formatText_alike same here there keyLocal (isLocal template member)
  cases templated with
  | addSymbol pattern => exact formatted pattern (by simp)
  | replace oldValue newValue count =>
    simp only [outcome]
    rw [text, words oldValue (by simp), words newValue (by simp), formatted count (by simp)]
  | dateFormat format =>
    simp only [outcome]
    rw [text, words format (by simp)]
  | dateWeekday format =>
    simp only [outcome]
    rw [text, words format (by simp)]
  | windDirection delimiter dict =>
    have wind := windDirection_alike same here there keyLocal
      fun template member => isLocal template (List.mem_cons_of_mem delimiter member)
    simp only [outcome, wind]
    rw [text, words delimiter (by simp)]

theorem applyKey_alike (here : scope.AtKey place key index)
    (there : otherScope.AtKey otherPlace key index) (keyLocal : Path.HeadIn ["_loop"] key)
    {target : String} (targetLocal : Path.HeadIn ["_loop"] target) {op : TransformOp}
    {templates : List Value} (templated : op.Templated templates)
    (isLocal : ∀ template ∈ templates, template.LocalTemplate) (chance : Chance) :
    Alike place otherPlace (applyKey chance op key target scope)
      (applyKey chance op key target otherScope) := by
  have noDraw : countDraw op = pure () := by cases templated <;> rfl
  have writing (value : Value) : Alike place otherPlace (Edit.write target value scope)
      (Edit.write target value otherScope) := fun context other item same =>
    insert_alike same here.toAtPlace there.toAtPlace targetLocal value
  intro context other item same
  have value := outcome_alike same here there keyLocal templated isLocal chance
  simp only [applyKey, noDraw]
  cases found : outcome chance other key otherScope op with
  | error error =>
    refine ⟨.error error, item, ?_, ?_⟩
    · rw [overwrite_held same.held]
      exact Attempt.look_bind_error (value.trans found)
    · rw [overwrite_held same.heldOther]
      exact Attempt.look_bind_error found
  | ok new =>
    obtain ⟨outcome, changed, written, writtenOther⟩ :=
      (writing new).andThen Alike.pure context other item same
    refine ⟨outcome, changed, ?_, ?_⟩
    · rw [← written]
      exact Attempt.look_bind_ok (value.trans found)
    · rw [← writtenOther]
      exact Attempt.look_bind_ok found

end Key

/-! Transforms. -/

section Transforms

variable {scope otherScope : Scope} {place otherPlace : List String}

theorem applyKeys_alike (here : scope.AtPlace place) (there : otherScope.AtPlace otherPlace)
    {spec : TransformSpec} (isLocal : spec.IsLocal) (chance : Chance) {keys : List String}
    (among : ∀ key ∈ keys, key ∈ spec.keys) (start : Nat) :
    Alike place otherPlace (applyKeys chance spec scope start keys)
      (applyKeys chance spec otherScope start keys) := by
  obtain ⟨templates, templated, templatesLocal⟩ := isLocal.templates
  induction keys generalizing start with
  | nil => exact Alike.pure
  | cons key rest ih =>
    have keyLocal := isLocal.keys key (among key List.mem_cons_self)
    have targetLocal : Path.HeadIn ["_loop"] (spec.outputKey start key) := by
      rw [TransformSpec.outputKey]
      cases given : spec.newKeys with
      | none => exact keyLocal
      | some newKeys =>
        cases present : newKeys[start]? with
        | none => simpa [present] using keyLocal
        | some newKey =>
          simpa [present] using isLocal.newKeys newKeys given newKey (List.mem_of_getElem? present)
    have first := applyKey_alike (atKey_keyScope here spec.kind start key)
      (atKey_keyScope there spec.kind start key) keyLocal targetLocal templated templatesLocal chance
    have later := ih (fun key member => among key (List.mem_cons_of_mem _ member)) (start + 1)
    exact (first.annotate _).andThen later

theorem apply_alike (here : scope.AtPlace place) (there : otherScope.AtPlace otherPlace)
    {spec : TransformSpec} (isLocal : spec.IsLocal) (chance : Chance) :
    Alike place otherPlace (apply chance scope spec) (apply chance otherScope spec) := by
  have keys := applyKeys_alike here there isLocal chance (fun _ member => member) 0
  obtain ⟨kind, keys, newKeys, op⟩ := spec
  obtain ⟨templates, templated, -⟩ := isLocal.templates
  cases templated <;> simpa only [apply, applyOp, TransformSpec.keys] using keys

theorem applyAll_alike {specs : List TransformSpec} (isLocal : ∀ spec ∈ specs, spec.IsLocal)
    (chance : Chance) : LocalBody fun scope => applyAll chance scope specs := by
  intro scope otherScope place otherPlace here there
  induction specs with
  | nil =>
    simp only [applyAll]
    exact Alike.pure
  | cons spec rest ih =>
    have first := apply_alike here there (isLocal spec List.mem_cons_self) chance
    have later := ih fun spec member => isLocal spec (List.mem_cons_of_mem _ member)
    simp only [applyAll]
    exact first.andThen later

end Transforms

/-! Loops. -/

theorem atPlace_itemScope {segments : List String} (absolute : Path.Absolute segments)
    (loopId : String) (scope : Scope) (index : Nat) (item : Value) :
    (itemScope loopId (some (Path.join segments)) scope index item).AtPlace
      (segments ++ [Text.natural index]) := by
  have only : ⟨index, item, itemScope loopId (some (Path.join segments)) scope index item⟩ ∈
      iterationsFrom loopId (some (Path.join segments)) scope index [item] := List.mem_cons_self
  exact atPlace_of_mem_iterationsFrom absolute only

section Loop

variable {context : Context} {scope : Scope} {segments : List String} {array : Value}
  {body : Scope → Edit Unit}

/-- The iteration at an item does to it what it would do to it in an array of its own. -/
theorem iteration_alike (absolute : Path.Absolute segments)
    (held : context.data.at? segments = some array)
    (bodyLocal : LocalBody body) (scope : Scope) (loopId : String) (done rest : List Value)
    (item : Value) (counted : done.length < Text.countLimit) :
    ∃ outcome changed,
      body (itemScope loopId (some (Path.join segments)) scope done.length item)
          (context.overwrite segments (.array (done ++ item :: rest))) =
        (outcome, context.overwrite segments (.array (done ++ changed :: rest))) ∧
      body (itemScope loopId (some (Path.join segments)) scope 0 item)
          (context.overwrite segments (.array [item])) =
        (outcome, context.overwrite segments (.array [changed])) := by
  have whole := at?_overwrite held (.array (done ++ item :: rest))
  have alone := at?_overwrite held (.array [item])
  have same : SameItem (context.overwrite segments (.array (done ++ item :: rest)))
      (context.overwrite segments (.array [item])) (segments ++ [Text.natural done.length])
      (segments ++ [Text.natural 0]) item := by
    refine ⟨rfl, rfl, ?_, ?_⟩
    · rw [at?_item whole counted]
      simp
    · rw [at?_item alone (by decide)]
      rfl
  obtain ⟨outcome, changed, here, there⟩ :=
    bodyLocal _ _ _ _ (atPlace_itemScope absolute loopId scope done.length item)
      (atPlace_itemScope absolute loopId scope 0 item) _ _ item same
  refine ⟨outcome, changed, ?_, ?_⟩
  · rw [here, overwrite_item whole (by simp) counted, overwrite_overwrite]
    simp
  · rw [there, overwrite_item alone (by simp) (by decide), overwrite_overwrite]
    rfl

theorem forEach_single (body : Scope → Edit Unit) (iteration : Iteration) (before : Context) :
    forEach body [iteration] before = body iteration.scope before := by
  rcases run : body iteration.scope before with ⟨error | _, after⟩
  · exact Attempt.bind_run_error run
  · exact Attempt.bind_run_ok run

/-- Once the items in front are done, the iterations that are left end well exactly when each of them
does in an array of its own, and leave what these leave. -/
theorem forEach_alike (absolute : Path.Absolute segments)
    (held : context.data.at? segments = some array) (bodyLocal : LocalBody body) (scope : Scope)
    (loopId : String) (done rest : List Value)
    (counted : done.length + rest.length ≤ Text.countLimit) :
    let left := forEach body
      (iterationsFrom loopId (some (Path.join segments)) scope done.length rest)
      (context.overwrite segments (.array (done ++ rest)))
    let alone (item : Value) := forEach body
      (iterationsFrom loopId (some (Path.join segments)) scope 0 [item])
      (context.overwrite segments (.array [item]))
    (left.1 = .ok () ↔ ∀ item ∈ rest, (alone item).1 = .ok ()) ∧
      (left.1 = .ok () → left.2 = context.overwrite segments
        (.array (done ++ rest.flatMap fun item => (alone item).2.itemsAt segments))) := by
  intro left alone
  induction rest generalizing done with
  | nil =>
    refine ⟨⟨fun _ item member => absurd member List.not_mem_nil, fun _ => rfl⟩, fun _ => ?_⟩
    rw [List.flatMap_nil]
    rfl
  | cons item rest ih =>
    rw [List.length_cons] at counted
    obtain ⟨outcome, changed, here, there⟩ := iteration_alike absolute held bodyLocal scope loopId
      done rest item (by omega)
    cases outcome with
    | error error =>
      have failed : left = (.error error, _) := Attempt.bind_run_error here
      have failedAlone : alone item = (.error error, _) := (forEach_single _ _ _).trans there
      rw [failed]
      constructor
      · constructor
        · intro success
          cases success
        · intro every
          have success := every item List.mem_cons_self
          rw [failedAlone] at success
          cases success
      · intro success
        cases success
    | ok =>
      -- The item that is done goes to those in front, where later iterations leave it alone.
      have onwards : left = forEach body
          (iterationsFrom loopId (some (Path.join segments)) scope (done ++ [changed]).length rest)
          (context.overwrite segments (.array ((done ++ [changed]) ++ rest))) := by
        rw [List.append_assoc, List.length_append]
        exact Attempt.bind_run_ok here
      have endsAlone : alone item = (.ok (), context.overwrite segments (.array [changed])) :=
        (forEach_single _ _ _).trans there
      have changes : (alone item).2.itemsAt segments = [changed] := by
        rw [endsAlone, itemsAt, at?_overwrite held]
      obtain ⟨ends, leaves⟩ := ih (done ++ [changed]) (by simp; omega)
      rw [onwards]
      constructor
      · rw [ends]
        simp [endsAlone, alone]
      · intro success
        rw [leaves success, List.flatMap_cons, changes, List.append_assoc]

/-- A loop over an array in the data runs its body for the items that it finds there. -/
theorem apply_each_data {spec : String} {items : List Value}
    (located : context.locate (Template.stripBraces spec) scope = .ok (.data segments))
    (held : context.data.at? segments = some (.array items)) (chance : Chance)
    (kind : TransformKind) (keys : List String) (newKeys : Option (List String))
    (transformation : List TransformSpec) :
    apply chance scope (.mk kind keys newKeys (.each (.string spec) transformation)) context =
      Attempt.annotate (.transform kind spec)
        (forEach (fun scope => applyAll chance scope transformation)
          (iterationsFrom kind.name (some (Path.join segments)) scope 0 items)) context := by
  have read : context.get (Template.stripBraces spec) scope = .ok (.array items) := by
    rw [get_data located, held]
  have begun := iterations_of_get located read kind.name
  rw [apply, applyOp]
  refine Attempt.annotate_congr ?_ _
  exact Attempt.look_bind_ok (f := fun live : Context => live.iterations (.string spec) kind.name scope)
    begun

/-- A loop over an array in the data whose nested transforms keep to the item at hand is a pointwise
map. It ends well exactly when it does on every array of one item, and what it leaves is the
concatenation of what is left there; nothing else changes, and the other items have no say. An array
in memory has no more items than a machine word can count. -/
theorem local_loop_pointwise {spec : String} {items : List Value}
    {transformation : List TransformSpec}
    (located : context.locate (Template.stripBraces spec) scope = .ok (.data segments))
    (held : context.data.at? segments = some (.array items))
    (counted : items.length ≤ Text.countLimit)
    (isLocal : ∀ nested ∈ transformation, nested.IsLocal) (chance : Chance)
    (kind : TransformKind) (keys : List String) (newKeys : Option (List String)) :
    let loop := apply chance scope (.mk kind keys newKeys (.each (.string spec) transformation))
    let alone (item : Value) := loop (context.overwrite segments (.array [item]))
    ((loop context).1 = .ok () ↔ ∀ item ∈ items, (alone item).1 = .ok ()) ∧
    ((loop context).1 = .ok () →
      (loop context).2 = context.overwrite segments
        (.array (items.flatMap fun item => (alone item).2.itemsAt segments)) ∧
      ∀ other, Path.Apart segments other →
        (loop context).2.data.at? other = context.data.at? other) ∧
    (∀ item, ∃ changed, (alone item).2 = context.overwrite segments (.array [changed])) ∧
    (∀ others item, (context.overwrite segments others).overwrite segments (.array [item]) =
      context.overwrite segments (.array [item])) := by
  intro loop alone
  have absolute := locate_data located
  have bodyLocal := applyAll_alike isLocal chance
  have runs (array : List Value) : loop (context.overwrite segments (.array array)) =
      Attempt.annotate (.transform kind spec)
        (forEach (fun scope => applyAll chance scope transformation)
          (iterationsFrom kind.name (some (Path.join segments)) scope 0 array))
        (context.overwrite segments (.array array)) := by
    refine apply_each_data ?_ (at?_overwrite held (.array array)) chance kind keys newKeys
      transformation
    rw [← located]
    exact locate_congr rfl rfl _ scope
  have whole := runs items
  rw [overwrite_held held] at whole
  obtain ⟨ends, leaves⟩ := forEach_alike absolute held bodyLocal scope kind.name [] items
    (by simpa using counted)
  rw [List.nil_append, overwrite_held held, List.length_nil] at ends leaves
  refine ⟨?_, ?_, ?_, fun others item => overwrite_overwrite context segments others _⟩
  · rw [whole, Attempt.annotate_fst_ok_iff]
    simp only [alone, runs, Attempt.annotate_fst_ok_iff]
    exact ends
  · rw [whole, Attempt.annotate_fst_ok_iff, Attempt.annotate_snd]
    simp only [alone, runs, Attempt.annotate_snd]
    intro success
    refine ⟨leaves success, fun other apart => ?_⟩
    rw [leaves success]
    exact Value.at?_put_of_apart apart _
  · intro item
    obtain ⟨outcome, changed, -, there⟩ := iteration_alike absolute held bodyLocal scope
      kind.name [] [] item (by decide)
    refine ⟨changed, ?_⟩
    have run := (forEach_single (fun scope => applyAll chance scope transformation) ⟨0, item, _⟩
      (context.overwrite segments (.array [item]))).trans there
    rw [show alone item = loop (context.overwrite segments (.array [item])) from rfl, runs,
      Attempt.annotate_snd]
    exact congrArg Prod.snd run

end Loop

/-- Marks the text of a day. -/
def markDay : TransformSpec :=
  .mk .addSymbol ["_loop.text"] (some ["_loop.marked"]) (.addSymbol (.string "{_key}!"))

theorem markDay_local : markDay.IsLocal where
  keys := by
    intro key member
    rw [List.mem_singleton.mp member]
    exact Path.headIn_of_split (rfl : Path.split "_loop.text" = .ok ["_loop", "text"]) (by decide)
  newKeys := by
    rintro newKeys given key member
    cases given
    rw [List.mem_singleton.mp member]
    exact Path.headIn_of_split (rfl : Path.split "_loop.marked" = .ok ["_loop", "marked"])
      (by decide)
  templates := by
    refine ⟨_, .addSymbol _, fun template member => ?_⟩
    rw [List.mem_singleton.mp member]
    intro placeholder inTemplate
    rw [show Template.placeholders "{_key}!" = [⟨"_key", none⟩] from rfl] at inTemplate
    rw [List.mem_singleton.mp inTemplate]
    exact Path.headIn_of_split (rfl : Path.split "_key" = .ok ["_key"]) (by decide)

/-- Two days are marked, as each of them is on its own. -/
theorem local_loop_pointwise_forecast :
    let chance : Chance := ⟨⟨2020, 6, 15⟩, fun _ _ => 0⟩
    let loop := apply chance Scope.root (.mk .loop [] none (.each (.string "days") [markDay]))
    let alone (item : Value) := loop (forecast.overwrite ["days"] (.array [item]))
    let days := forecast.itemsAt ["days"]
    days.length = 2 ∧ (∀ day ∈ days, (alone day).1 = .ok ()) ∧
    (loop forecast).2 = forecast.overwrite ["days"]
      (.array (days.flatMap fun day => (alone day).2.itemsAt ["days"])) ∧
    ((loop forecast).2.data.at? ["days", "1", "marked"]).map Value.text = some "rain!" := by
  intro chance loop alone days
  have held : forecast.data.at? ["days"] = some (.array days) := rfl
  have counted : days.length ≤ Text.countLimit := by
    rw [show days.length = 2 from rfl]
    decide
  have isLocal : ∀ nested ∈ [markDay], nested.IsLocal := by
    intro nested member
    rw [List.mem_singleton.mp member]
    exact markDay_local
  obtain ⟨ends, leaves, -⟩ :=
    local_loop_pointwise locate_days held counted isLocal chance .loop [] none
  have success : (loop forecast).1 = .ok () := by
    have fine : (loop forecast).1.isOk = true := by decide +kernel
    cases outcome : (loop forecast).1 with
    | ok => rfl
    | error error =>
      rw [outcome] at fine
      cases fine
  exact ⟨rfl, ends.mp success, (leaves success).1, by decide +kernel⟩

end Transform

end Newsreel
