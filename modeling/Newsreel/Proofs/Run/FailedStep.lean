import Newsreel.Proofs.Context.ReadWrite
import Newsreel.Proofs.Transform.Stops
import Newsreel.Run.Engine

/-!
What is left of a step that fails.

Fetches and sequences write once, when everything else is done, and a write that fails changes
nothing. So they leave the context as it was, while transforms leave what they had completed.
-/

namespace Newsreel

namespace Action

/-- What a step leaves of a context when it fails. -/
def Leaves (chance : Chance) (scope : Scope) : Action → Context → Context → Prop
  | .fetch _ _, before, after => after = before
  | .transform spec, before, after => Transform.Stops chance scope spec before after
  | .transforms specs, before, after => Transform.StopsAll chance scope specs before after
  | .sequence _, before, after => after = before

variable {α : Type} {scope : Scope} {before after : Context} {world worldAfter : World}
  {error : StepError}

theorem onContext_error_iff {edit : Edit α} :
    onContext edit (before, world) = (.error error, (after, worldAfter)) ↔
      edit before = (.error error, after) ∧ worldAfter = world := by
  rw [onContext, Attempt.within]
  rcases edit before with ⟨outcome, left⟩
  constructor
  · intro failure
    cases failure
    exact ⟨rfl, rfl⟩
  · rintro ⟨failure, rfl⟩
    cases failure
    rfl

theorem onContext_error {edit : Edit α}
    (failure : onContext edit (before, world) = (.error error, (after, worldAfter))) :
    edit before = (.error error, after) := (onContext_error_iff.mp failure).1

theorem onWorld_iff {work : Context → Effect α} {outcome : Except StepError α} :
    onWorld work (before, world) = (outcome, (after, worldAfter)) ↔
      work before world = (outcome, worldAfter) ∧ after = before := by
  rw [onWorld]
  rcases work before world with ⟨result, left⟩
  constructor
  · intro done
    cases done
    exact ⟨rfl, rfl⟩
  · rintro ⟨done, rfl⟩
    cases done
    rfl

/-- Work on the world and a write of what comes of it fail in one or the other. -/
theorem write_last_error_iff {work : Context → Effect α} {layer : StepError → StepError}
    {path : String} {value : α → Value} {result : α → Option String} :
    (do
        let a ← onWorld work
        Attempt.annotate layer (onContext (Edit.write path (value a) scope))
        return result a) (before, world) = (.error error, (after, worldAfter)) ↔
      after = before ∧ (work before world = (.error error, worldAfter) ∨
        ∃ a cause, work before world = (.ok a, worldAfter) ∧
          (before.insert path (value a) scope).1 = .error cause ∧ layer cause = error) := by
  constructor
  · intro failure
    rcases Attempt.bind_error_iff.mp failure with failed | ⟨a, ⟨between, behind⟩, done, writing⟩
    · obtain ⟨failed, rfl⟩ := onWorld_iff.mp failed
      exact ⟨rfl, Or.inl failed⟩
    · obtain ⟨done, rfl⟩ := onWorld_iff.mp done
      rcases Attempt.bind_error_iff.mp writing with refused | ⟨⟨⟩, last, -, ended⟩
      · obtain ⟨cause, inside, rfl⟩ := Attempt.annotate_error_iff.mp refused
        obtain ⟨write, rfl⟩ := onContext_error_iff.mp inside
        have kept := Context.insert_error (congrArg Prod.fst write)
        exact ⟨(congrArg Prod.snd write).symm.trans kept,
          Or.inr ⟨a, cause, done, congrArg Prod.fst write, rfl⟩⟩
      · cases ended
  · rintro ⟨rfl, failed | ⟨a, cause, done, refused, rfl⟩⟩
    · exact Attempt.bind_run_error (onWorld_iff.mpr ⟨failed, rfl⟩)
    · refine (Attempt.bind_run_ok (onWorld_iff.mpr ⟨done, rfl⟩)).trans (Attempt.bind_run_error ?_)
      have write : Edit.write path (value a) scope after = (.error cause, after) :=
        Prod.ext refused (Context.insert_error refused)
      exact Attempt.annotate_error_iff.mpr ⟨cause, onContext_error_iff.mpr ⟨write, rfl⟩, rfl⟩

/-- Work on the world and a write of what comes of it: a failure leaves the context as it was. -/
theorem write_last_error {work : Context → Effect α} {layer : StepError → StepError}
    {path : String} {value : α → Value} {result : α → Option String}
    (failure : (do
        let a ← onWorld work
        Attempt.annotate layer (onContext (Edit.write path (value a) scope))
        return result a) (before, world) = (.error error, (after, worldAfter))) :
    after = before := (write_last_error_iff.mp failure).1

/-- A step that fails leaves its completed writes and nothing else, and this determines what it
leaves. -/
theorem failed_run_leaves {surroundings : Surroundings} {action : Action}
    (failure : action.run surroundings scope (before, world) = (.error error, (after, worldAfter))) :
    action.Leaves surroundings.chance scope before after ∧
      ∀ other, action.Leaves surroundings.chance scope before other → other = after := by
  cases action with
  | fetch key spec =>
    rw [run] at failure
    obtain rfl := write_last_error failure
    exact ⟨rfl, fun _ same => same⟩
  | sequence spec =>
    rw [run] at failure
    obtain rfl := write_last_error failure
    exact ⟨rfl, fun _ same => same⟩
  | transform spec =>
    rw [run] at failure
    rcases Attempt.bind_error_iff.mp failure with failed | ⟨⟨⟩, last, -, ended⟩
    · have stops := Transform.stops_of_error (onContext_error failed)
      exact ⟨stops, fun _ other => Transform.stops_unique stops other⟩
    · cases ended
  | transforms specs =>
    rw [run] at failure
    rcases Attempt.bind_error_iff.mp failure with failed | ⟨⟨⟩, last, -, ended⟩
    · have stops := Transform.stopsAll_of_error (onContext_error failed)
      exact ⟨stops, fun _ other => Transform.stopsAll_unique stops other⟩
    · cases ended

/-- Surroundings that a transform takes nothing from. -/
def offline : Surroundings where
  now := ⟨⟨2020, 6, 15⟩, ⟨7, 0, 0, 0⟩⟩
  network := Web.unreachable
  encoder := ⟨fun _ => .ok 0, fun _ _ => .ok ()⟩
  pick := fun _ _ => 0
  freshId := "99999999-8888-4777-8666-555555555555"

/-- Writes the sky, and then at a path that can only be read. -/
def writeSky : TransformSpec :=
  .mk .addSymbol ["sky", "_run_id"] none (.addSymbol (.string "rain"))

/-- The forecast once the sky has been written. -/
def rainyForecast : Context where
  data := .object [("days", .array [.object [("text", .string "sun")], Context.rainyDay]),
    ("sky", .string "rain")]
  config := Context.forecast.config
  runId := Context.forecast.runId

theorem writeSky_fails :
    (Action.transform writeSky).run offline Scope.root (Context.forecast, {}) =
      (.error (.transform .addSymbol "_run_id" (.invalidValue "_run_id" .readOnly)),
        (rainyForecast, {})) := by
  have located (scope : Scope) : Context.forecast.locate "sky" scope = .ok (.data ["sky"]) := by
    have read : Path.split "sky" = .ok ["sky"] := rfl
    rw [Context.locate_of_split read]
    exact Context.locateWithin_absolute (Path.absolute_of_split read (by decide)) _ _ scope 16
  have locatedId (scope : Scope) : rainyForecast.locate "_run_id" scope =
      .ok (.detached (.string rainyForecast.runId) []) := by
    have read : Path.split "_run_id" = .ok ["_run_id"] := rfl
    rw [Context.locate_of_split read]
    simp only [Context.locateWithin, Context.expand]
  have first : Transform.keyWork offline.chance writeSky Scope.root 0 "sky" Context.forecast =
      (.ok (), rainyForecast) := by
    refine Attempt.annotate_ok_iff.mpr ((Attempt.look_bind_ok rfl).trans ?_)
    refine (Attempt.bind_run_ok (a := ()) ?_).trans rfl
    exact Context.insert_data (located _) (.string "rain")
  have second : Transform.keyWork offline.chance writeSky Scope.root 1 "_run_id" rainyForecast =
      (.error (.transform .addSymbol "_run_id" (.invalidValue "_run_id" .readOnly)),
        rainyForecast) := by
    refine Attempt.annotate_error_iff.mpr ⟨.invalidValue "_run_id" .readOnly, ?_, rfl⟩
    refine (Attempt.look_bind_ok rfl).trans (Attempt.bind_run_error ?_)
    have target : writeSky.outputKey 1 "_run_id" = "_run_id" := rfl
    rw [Edit.write, target, Context.insert, locatedId]
  have applied : Transform.apply offline.chance Scope.root writeSky Context.forecast =
      (.error (.transform .addSymbol "_run_id" (.invalidValue "_run_id" .readOnly)),
        rainyForecast) := by
    rw [Transform.apply_keyed rfl]
    exact (Attempt.bind_run_ok first).trans (Attempt.bind_run_error second)
  rw [run]
  refine Attempt.bind_run_error ?_
  rw [onContext, Attempt.within, applied]

/-- The sky stays written, and the rule leaves no other choice. -/
theorem failed_run_leaves_forecast :
    (∃ error, (Action.transform writeSky).run offline Scope.root (Context.forecast, {}) =
      (.error error, (rainyForecast, {}))) ∧
    Transform.Stops offline.chance Scope.root writeSky Context.forecast rainyForecast ∧
    ¬Transform.Stops offline.chance Scope.root writeSky Context.forecast Context.forecast := by
  obtain ⟨stops, unique⟩ := failed_run_leaves writeSky_fails
  refine ⟨⟨_, writeSky_fails⟩, stops, fun unchanged => ?_⟩
  have same := congrArg (fun context => context.data.at? ["sky"]) (unique _ unchanged)
  cases same

end Action

end Newsreel
