import Newsreel.Proofs.Context.ReadWrite
import Newsreel.Proofs.Transform.Stops

/-!
What keyed transforms touch.

A keyed transform writes at its output keys and nowhere else. Where a path leads does not depend on
the data, so the writes can be told from the context that the transform begins with, through
whatever aliases the output keys go; and what is read at a place that parts from all of theirs is
the same before and behind, however the transform ends.
-/

namespace Newsreel

namespace Context

/-- A write at one path is not seen at another one: if both lead into the data, they part. -/
def Parted (context : Context) (target : String) (writer : Scope) (path : String)
    (reader : Scope) : Prop :=
  ∀ segments others, context.locate target writer = .ok (.data segments) →
    context.locate path reader = .ok (.data others) → Path.Apart segments others

theorem parted_of_apart {context : Context} {target path : String} {writer reader : Scope}
    {segments others : List String}
    (located : context.locate target writer = .ok (.data segments))
    (locatedOther : context.locate path reader = .ok (.data others))
    (apart : Path.Apart segments others) : context.Parted target writer path reader := by
  intro first second there thereOther
  rw [located] at there
  rw [locatedOther] at thereOther
  cases there
  cases thereOther
  exact apart

/-- A context in which nothing has happened to what is read at a path. -/
structure Kept (before : Context) (path : String) (reader : Scope) (live : Context) : Prop where
  config : live.config = before.config
  runId : live.runId = before.runId
  held : ∀ others, before.locate path reader = .ok (.data others) →
    live.data.at? others = before.data.at? others

variable {before live : Context} {path target : String} {reader writer : Scope}

theorem kept_refl (before : Context) (path : String) (reader : Scope) :
    before.Kept path reader before := ⟨rfl, rfl, fun _ _ => rfl⟩

theorem Kept.get (kept : before.Kept path reader live) :
    live.get path reader = before.get path reader := by
  rw [Context.get, Context.get, locate_congr kept.config kept.runId]
  cases located : before.locate path reader with
  | error error => rfl
  | ok location =>
    cases location with
    | data others => simp only [bind, Except.bind, read, kept.held others located]
    | detached value rest => rfl
    | index n => rfl

theorem Kept.insert (kept : before.Kept path reader live)
    (parted : before.Parted target writer path reader) (value : Value) :
    before.Kept path reader (live.insert target value writer).2 := by
  obtain ⟨config, runId⟩ := live.insert_frame target value writer
  refine ⟨config.trans kept.config, runId.trans kept.runId, fun others located => ?_⟩
  rw [← kept.held others located]
  by_cases inData : ∃ segments, live.locate target writer = .ok (.data segments)
  · obtain ⟨segments, there⟩ := inData
    -- Earlier writes cannot have moved the target: where it leads does not depend on the data.
    have begun : before.locate target writer = .ok (.data segments) :=
      (locate_congr kept.config kept.runId target writer).symm.trans there
    rw [insert_data there]
    exact Value.at?_put_of_apart (parted segments others begun located) _
  · obtain ⟨error, refused⟩ := insert_elsewhere (not_exists.mp inData) value
    rw [refused]

end Context

namespace Transform

variable {invariant : Context → Prop} {scope : Scope} {spec : TransformSpec}

/-! What stays true while a keyed transform runs, if its writes and its choices leave it true. -/

theorem applyKey_preserves
    (draws : ∀ context, invariant context → invariant { context with draws := context.draws + 1 })
    (chance : Chance) (op : TransformOp) (key : String) {target : String} {scope : Scope}
    (writes : ∀ value, (Edit.write target value scope).Preserves invariant) :
    (applyKey chance op key target scope).Preserves invariant := by
  have draw : (countDraw op).Preserves invariant := by
    cases op with
    | chooseRandom choice dict => exact draws
    | _ => exact Attempt.preserves_pure ()
  exact (Attempt.preserves_look _).bind fun value => (writes value).bind fun _ => draw

theorem apply_keyed_preserves (keyed : spec.op.isKeyed = true)
    (draws : ∀ context, invariant context → invariant { context with draws := context.draws + 1 })
    (chance : Chance)
    (writes : ∀ place key, spec.keys[place]? = some key → ∀ value,
      (Edit.write (spec.outputKey place key) value
        (keyScope spec.kind scope place key)).Preserves invariant) :
    (apply chance scope spec).Preserves invariant := by
  rw [apply_keyed keyed, applyKeys_eq_inOrder]
  refine Attempt.preserves_inOrder fun work member => ?_
  obtain ⟨place, within, rfl⟩ := List.mem_mapIdx.mp member
  rw [Nat.zero_add]
  have present := List.getElem?_eq_getElem within
  exact (applyKey_preserves draws chance _ _ (writes place _ present)).annotate _

/-- A keyed transform, whether it fails or not, changes nothing that is read apart from its output
keys; in particular, output keys that part from all source keys leave every source as it was. The
transforms that select or are not there yet change nothing at all. -/
theorem apply_touches_outputs (chance : Chance) (scope : Scope) (spec : TransformSpec)
    (context : Context) :
    (spec.op.isKeyed = true →
      (∀ path reader,
        (∀ place key, spec.keys[place]? = some key → context.Parted (spec.outputKey place key)
          (keyScope spec.kind scope place key) path reader) →
        (apply chance scope spec context).2.get path reader = context.get path reader) ∧
      ((∀ place key, spec.keys[place]? = some key →
          ∀ other source, spec.keys[other]? = some source →
            context.Parted (spec.outputKey place key) (keyScope spec.kind scope place key) source
              (keyScope spec.kind scope other source)) →
        ∀ other source, spec.keys[other]? = some source →
          (apply chance scope spec context).2.get source (keyScope spec.kind scope other source) =
            context.get source (keyScope spec.kind scope other source))) ∧
    ((∃ relevantKeys, spec.op = .select relevantKeys) ∨ spec.op = .unimplemented →
      (apply chance scope spec context).2 = context) := by
  have unseen (keyed : spec.op.isKeyed = true) (path : String) (reader : Scope)
      (parted : ∀ place key, spec.keys[place]? = some key →
        context.Parted (spec.outputKey place key) (keyScope spec.kind scope place key) path
          reader) :
      (apply chance scope spec context).2.get path reader = context.get path reader := by
    refine Context.Kept.get (apply_keyed_preserves keyed ?_ chance ?_ context
      (context.kept_refl path reader))
    · exact fun live kept => ⟨kept.config, kept.runId, kept.held⟩
    · exact fun place key present value live kept => kept.insert (parted place key present) value
  refine ⟨fun keyed => ⟨unseen keyed, fun parted other source present => ?_⟩, ?_⟩
  · exact unseen keyed source _ fun place key at_ => parted place key at_ other source present
  · obtain ⟨kind, keys, newKeys, op⟩ := spec
    rintro (⟨relevantKeys, rfl⟩ | rfl)
    · rw [apply, applyOp]
      rfl
    · rw [apply, applyOp]

/-- Marks the texts of two days, the second of which is missing, at the day of the loop. -/
def markDays : TransformSpec :=
  .mk .addSymbol ["days.0.text", "days.7.text"] (some ["_loop.first", "_loop.second"])
    (.addSymbol (.string "{_key}!"))

/-- The output keys lead to the second day, through the alias of the loop around. -/
theorem locate_markDays {place : Nat} {key : String} (present : markDays.keys[place]? = some key) :
    ∃ field, field ≠ "hours" ∧ Context.forecast.locate (markDays.outputKey place key)
      (keyScope .addSymbol Context.secondDay place key) = .ok (.data ["days", "1", field]) := by
  match place, present with
  | 0, present =>
    cases present
    exact ⟨"first", by decide, rfl⟩
  | 1, present =>
    cases present
    exact ⟨"second", by decide, rfl⟩

/-- The second key fails, and then neither the hours of the second day nor the text of the first one
have changed. -/
theorem apply_touches_outputs_markDays :
    let left := apply ⟨⟨2020, 6, 15⟩, fun _ _ => 0⟩ Context.secondDay markDays Context.forecast
    left.1.isOk = false ∧
    (left.2.data.at? ["days", "1", "first"]).map Value.text = some "sun!" ∧
    left.2.get "days.1.hours" Scope.root = .ok (.array [.ofNat 7, .ofNat 9]) ∧
    left.2.get "days.0.text" (keyScope .addSymbol Context.secondDay 0 "days.0.text") =
      .ok (.string "sun") := by
  intro left
  obtain ⟨unseen, sources⟩ := (apply_touches_outputs ⟨⟨2020, 6, 15⟩, fun _ _ => 0⟩
    Context.secondDay markDays Context.forecast).1 rfl
  refine ⟨by decide +kernel, by decide +kernel, unseen "days.1.hours" Scope.root ?_,
    sources ?_ 0 "days.0.text" rfl⟩
  · intro place key present
    obtain ⟨field, differs, there⟩ := locate_markDays present
    exact Context.parted_of_apart there rfl ⟨2, field, "hours", rfl, rfl, differs, fun _ _ => nofun⟩
  · intro place key present other source given
    obtain ⟨field, -, there⟩ := locate_markDays present
    match other, given with
    | 0, given =>
      cases given
      exact Context.parted_of_apart there rfl ⟨1, "1", "0", rfl, rfl, by decide, by decide⟩
    | 1, given =>
      cases given
      exact Context.parted_of_apart there rfl ⟨1, "1", "7", rfl, rfl, by decide, by decide⟩

end Transform

end Newsreel
