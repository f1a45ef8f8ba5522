/-!
A text cut at the occurrences of another one, and put together again.

Cutting takes the leftmost occurrence first and goes on behind it, so occurrences never overlap. The
empty text occurs at every boundary between characters and at both ends.
-/

namespace Newsreel.Text

/-- The rest of a text behind the given beginning, if it begins so. -/
def after? : List Char → List Char → Option (List Char)
  | [], cs => some cs
  | _ :: _, [] => none
  | p :: ps, c :: cs => if p = c then after? ps cs else none

def startsWith (start cs : List Char) : Bool := (after? start cs).isSome

/-- The text without the given ending, if it ends so. -/
def before? (ending cs : List Char) : Option (List Char) :=
  (after? ending.reverse cs.reverse).map List.reverse

/-- One cut fewer may be made; without a limit there is no last cut. -/
def spend : Option Nat → Option Nat
  | none => none
  | some n => some (n - 1)

/-- The pieces between the occurrences of a separator that is not empty. The piece under way is held
backwards in `piece`, and `skip` characters of an occurrence are still to be passed over. -/
def cutFrom (separator : List Char) :
    (skip : Nat) → (cuts : Option Nat) → (piece : List Char) → List Char → List (List Char)
  | _, _, piece, [] => [piece.reverse]
  | skip + 1, cuts, piece, _ :: cs => cutFrom separator skip cuts piece cs
  | 0, cuts, piece, c :: cs =>
    if cuts ≠ some 0 ∧ startsWith separator (c :: cs) then
      piece.reverse :: cutFrom separator (separator.length - 1) (spend cuts) [] cs
    else cutFrom separator 0 cuts (c :: piece) cs

/-- The pieces between the boundaries of characters; the last piece holds what is left uncut. -/
def cutAtBoundaries : (cuts : Option Nat) → List Char → List (List Char)
  | some 0, cs => [cs]
  | _, [] => [[], []]
  | cuts, c :: cs => match cutAtBoundaries (spend cuts) cs with
    | [] => [[], [c]]
    | piece :: pieces => [] :: (c :: piece) :: pieces

/-- The pieces of a text between at most the given number of occurrences of the separator. -/
def cut (separator : List Char) (cuts : Option Nat) (cs : List Char) : List (List Char) :=
  match separator with
  | [] => cutAtBoundaries cuts cs
  | _ => cutFrom separator 0 cuts [] cs

/-- The pieces with the given text between every two of them. -/
def join (glue : List Char) : List (List Char) → List Char
  | [] => []
  | [piece] => piece
  | piece :: pieces => piece ++ glue ++ join glue pieces

/-- The parts of a text between the occurrences of a separator. -/
def splitOn (separator : String) (s : String) : List String :=
  (cut separator.toList none s.toList).map String.ofList

/-- What stands before and behind the first occurrence of a character. -/
def splitAtChar? (sep : Char) : List Char → Option (List Char × List Char)
  | [] => none
  | c :: cs =>
    if c = sep then some ([], cs)
    else (splitAtChar? sep cs).map fun (front, rest) => (c :: front, rest)

/-- The parts of a text between the occurrences of a character. -/
def splitChars (sep : Char) : List Char → List (List Char)
  | [] => [[]]
  | c :: cs =>
    if c = sep then [] :: splitChars sep cs
    else match splitChars sep cs with
      | [] => [[c]]
      | part :: parts => (c :: part) :: parts

end Newsreel.Text
