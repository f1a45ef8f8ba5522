import Newsreel.Text.Search

/-!
Paths of files: texts whose parts stand between slashes. A path that begins with a slash starts at
the root, any other one at the working directory.
-/

namespace Newsreel.Files

def isAbsolute (path : String) : Bool := path.toList.head? = some '/'

/-- A path below another one. An absolute path stays as it is. -/
def join (base path : String) : String :=
  if isAbsolute path then path
  else if base = "" then path
  else if base.toList.getLast? = some '/' then base ++ path
  else base ++ "/" ++ path

/-- The parts of a path. -/
def parts (path : String) : List String := (Text.splitChars '/' path.toList).map String.ofList

/-- The directory of a path. -/
def parent (path : String) : String :=
  match path.toList.reverse.dropWhile (· ≠ '/') with
  | [] => ""
  | ['/'] => "/"
  | _ :: above => String.ofList above.reverse

/-- The name of a file before and behind its last point. A name without a point, or with its only
point at the beginning, has nothing behind it. -/
def splitName (name : String) : String × Option String :=
  match Text.splitAtChar? '.' name.toList.reverse with
  | some (ending, front) =>
    if front.isEmpty then (name, none)
    else (String.ofList front.reverse, some (String.ofList ending.reverse))
  | none => (name, none)

end Newsreel.Files
