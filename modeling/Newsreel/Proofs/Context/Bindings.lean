import Newsreel.Proofs.Context.Local

/-!
What paths and templates see of a scope.

A path looks up the innermost index, key and value of a scope and nothing else. So scopes that bind
the same cannot be told apart by what is read or filled in, whatever loops opened their frames.
-/

namespace Newsreel

/-- The scope binds what another one binds. -/
structure Scope.BindsAs (scope other : Scope) : Prop where
  index : scope.index? = other.index?
  key : scope.key? = other.key?
  frame : scope.valueFrame? = other.valueFrame?

namespace Context

variable {scope other : Scope}

theorem expand_bindsAs (same : scope.BindsAs other) (context : Context) (path : String)
    (segments : List String) :
    context.expand path scope segments = context.expand path other segments := by
  unfold expand
  rw [same.index, same.key, same.frame]

theorem locateWithin_bindsAs (same : scope.BindsAs other) (context : Context) (path : String)
    (steps : Nat) (segments : List String) :
    context.locateWithin path scope steps segments =
      context.locateWithin path other steps segments := by
  induction steps generalizing segments with
  | zero => rfl
  | succ steps ih =>
    rw [locateWithin, locateWithin, expand_bindsAs same]
    split
    · rfl
    · rfl
    · exact ih _

theorem locate_bindsAs (same : scope.BindsAs other) (context : Context) (path : String) :
    context.locate path scope = context.locate path other := by
  simp only [locate, locateWithin_bindsAs same]

theorem get_bindsAs (same : scope.BindsAs other) (context : Context) (path : String) :
    context.get path scope = context.get path other := by
  rw [get, get, locate_bindsAs same]

theorem formatText_bindsAs (same : scope.BindsAs other) (context : Context) (value : Value) :
    context.formatText scope value = context.formatText other value := by
  cases value with
  | string template =>
    refine congrArg (Except.map Value.text) (formatTemplate_congr fun placeholder _ => ?_)
    unfold resolve
    rw [get_bindsAs same]
  | _ => rfl

end Context

end Newsreel
