import Newsreel.Context.Loop
import Newsreel.Proofs.Context.Locate

/-!
Reading and writing through paths of a scope.

The laws hold for a path however it leads into the data, by its own segments or through `_loop` and
`_key`, because a write does not change where a path leads.
-/

namespace Newsreel.Context

/-- Reads and writes at paths into the data: what was written is read; writing what is read changes
nothing; of two writes at one path only the second one counts; and a write is not seen at a path
that parts from its own. -/
theorem read_over_write {context : Context} {scope : Scope} {path other : String}
    {segments others : List String}
    (located : context.locate path scope = .ok (.data segments))
    (locatedOther : context.locate other scope = .ok (.data others))
    (value first second : Value) :
    ((context.insert path value scope).1 = .ok () →
      (context.insert path value scope).2.get path scope = .ok value) ∧
    (context.get path scope = .ok value →
      context.insert path value scope = (.ok (), context)) ∧
    (context.insert path first scope).2.insert path second scope =
      context.insert path second scope ∧
    (Path.Apart segments others →
      (context.insert path value scope).2.get other scope = context.get other scope) := by
  have stays (data : Value) (p : String) :
      ({ context with data } : Context).locate p scope = context.locate p scope :=
    locate_congr rfl rfl p scope
  refine ⟨fun success => ?_, fun read => ?_, ?_, fun apart => ?_⟩
  · rw [insert_data located] at success ⊢
    rw [get_data ((stays _ _).trans located), Value.at?_put success]
  · rw [get_data located] at read
    split at read
    · next found there =>
      cases read
      rw [insert_data located, Value.put_of_at? there]
    · cases read
  · rw [insert_data located, insert_data ((stays _ _).trans located), insert_data located,
      Value.put_put]
  · rw [insert_data located, get_data ((stays _ _).trans locatedOther), get_data locatedOther,
      Value.at?_put_of_apart apart]

/-- A day with readings at two hours. -/
def rainyDay : Value :=
  .object [("text", .string "rain"), ("hours", .array [.ofNat 7, .ofNat 9])]

/-- The weather of two days. -/
def forecast : Context where
  data := .object [("days", .array [.object [("text", .string "sun")], rainyDay])]
  config := .named "weather"
  runId := "11111111-2222-4333-8444-555555555555"

/-- The scope of a loop over the days at the second one. -/
def secondDay : Scope := itemScope "loop" (some "days") Scope.root 1 rainyDay

theorem atPlace_secondDay : secondDay.AtPlace ["days", "1"] := by
  have read : Path.split "days.1" = .ok ["days", "1"] := rfl
  exact ⟨Path.absolute_of_split read (by decide), _, "days.1", rfl, rfl, read⟩

theorem locate_secondDay :
    forecast.locate "_loop.text" secondDay = .ok (.data ["days", "1", "text"]) := by
  have read : Path.split "_loop.text" = .ok ["_loop", "text"] := rfl
  rw [locate_of_split read]
  exact locateWithin_loop atPlace_secondDay forecast _ (Path.split_settled read).plain_tail 15

theorem locate_days : forecast.locate (Template.stripBraces "days") Scope.root =
    .ok (.data ["days"]) := by
  have read : Path.split (Template.stripBraces "days") = .ok ["days"] := rfl
  rw [locate_of_split read]
  exact locateWithin_absolute (Path.absolute_of_split read (by decide)) forecast _ Scope.root 16

theorem locate_firstDay : forecast.locate "days.0" secondDay = .ok (.data ["days", "0"]) := by
  have read : Path.split "days.0" = .ok ["days", "0"] := rfl
  rw [locate_of_split read]
  exact locateWithin_absolute (Path.absolute_of_split read (by decide)) forecast _ secondDay 16

/-- Fog written through `_loop` is read there, and not at the other day. -/
theorem read_over_write_forecast :
    forecast.locate "_loop.text" secondDay = .ok (.data ["days", "1", "text"]) ∧
    forecast.locate "days.0" secondDay = .ok (.data ["days", "0"]) ∧
    (forecast.insert "_loop.text" (.string "fog") secondDay).2.get "_loop.text" secondDay =
      .ok (.string "fog") ∧
    (forecast.insert "_loop.text" (.string "fog") secondDay).2.get "days.0" secondDay =
      forecast.get "days.0" secondDay := by
  obtain ⟨reads, -, -, frame⟩ := read_over_write locate_secondDay locate_firstDay (.string "fog")
    .null .null
  refine ⟨locate_secondDay, locate_firstDay, reads ?_, frame ⟨1, "1", "0", rfl, rfl, by decide, ?_⟩⟩
  · rw [insert_data locate_secondDay]
    rfl
  · decide

end Newsreel.Context
