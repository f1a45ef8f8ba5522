import Newsreel.Fault

/-!
Work on a state that may fail. What was done before a failure stays done.
-/

namespace Newsreel

abbrev Attempt (σ α : Type) := ExceptT StepError (StateM σ) α

namespace Attempt

/-- An outcome that does not touch the state. -/
def ofExcept (outcome : Except StepError α) : Attempt σ α := fun s => (outcome, s)

/-- Something found out about the state. -/
def look (f : σ → Except StepError α) : Attempt σ α := fun s => (f s, s)

/-- A failure inside the work gets one more layer. -/
def annotate (layer : StepError → StepError) (work : Attempt σ α) : Attempt σ α := fun s =>
  match work s with
  | (.ok a, after) => (.ok a, after)
  | (.error error, after) => (.error (layer error), after)

/-- Work on a part of the state. -/
def within (get : σ → τ) (put : σ → τ → σ) (work : Attempt τ α) : Attempt σ α := fun s =>
  match work (get s) with
  | (outcome, part) => (outcome, put s part)

end Attempt

end Newsreel
