import Newsreel.Text.Digits

/-!
Emphasis in what is printed, and the signs at the beginning of a line.
-/

namespace Newsreel.Cli

inductive Style where
  | bold
  | dim
  | red
  | green
  | yellow
  | cyan
  deriving DecidableEq, Repr

/-- How emphasis is printed. -/
abbrev Paint := Style → String → String

namespace Style

/-- The number that a terminal knows a style by. -/
def code : Style → Nat
  | .bold => 1
  | .dim => 2
  | .red => 31
  | .green => 32
  | .yellow => 33
  | .cyan => 36

end Style

namespace Paint

/-- No emphasis. -/
def plain : Paint := fun _ text => text

/-- The text between the sequence that begins a style and the one that ends it. -/
def terminal : Paint := fun style text =>
  "\x1b[" ++ Text.natural style.code ++ "m" ++ text ++ "\x1b[0m"

end Paint

namespace Sign

def check : String := "✅ "
def cross : String := "❌ "
def wait : String := "⏳ "
def info : String := "ℹ️  "
def warn : String := "⚠️  "
def film : String := "🎬 "

end Sign

end Newsreel.Cli
