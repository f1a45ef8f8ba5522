import Newsreel.Fault
import Newsreel.Files.Path

/-!
The files that a run finds and leaves behind.

A tree holds files and directories by place: the list of names that leads to them from the working
directory or from the root. The two starting points are directories and are always there. Nothing
lies above them.
-/

namespace Newsreel.Files

inductive Entry where
  | directory
  | file (content : String)
  deriving DecidableEq, Repr

/-- Names from a starting point down; those from the root begin with a slash. -/
abbrev Place := List String

structure Tree where
  entries : List (Place × Entry) := []

namespace Place

def root : Place := ["/"]

def isStart (place : Place) : Bool := place = [] || place = root

/-- Where the parts of a path are counted from. -/
def startOf (path : String) : Place := if isAbsolute path then root else []

/-- One part of a path further. Nothing and a point stay, two points go up. -/
def next (place : Place) (part : String) : Place :=
  if part = "" ∨ part = "." then place
  else if part = ".." then (if isStart place then place else place.dropLast)
  else place ++ [part]

/-- The path of a place. -/
def path : Place → String
  | "/" :: names => "/" ++ String.intercalate "/" names
  | names => String.intercalate "/" names

/-- The most bytes that a name may have. -/
def nameLimit : Nat := 255

end Place

namespace Tree

/-- What lies at a place. -/
def entry? (tree : Tree) (place : Place) : Option Entry :=
  if place.isStart then some .directory
  else (tree.entries.find? fun entry => entry.1 = place).map (·.2)

/-- The entries with one of them put at its place. -/
def insertEntry (place : Place) (entry : Entry) : List (Place × Entry) → List (Place × Entry)
  | [] => [(place, entry)]
  | (other, old) :: rest =>
    if other = place then (other, entry) :: rest
    else (other, old) :: insertEntry place entry rest

def insert (tree : Tree) (place : Place) (entry : Entry) : Tree :=
  ⟨insertEntry place entry tree.entries⟩

/-- The tree without a place and everything below it. -/
def prune (tree : Tree) (place : Place) : Tree :=
  ⟨tree.entries.filter fun entry => !place.isPrefixOf entry.1⟩

/-- Walks down the parts of a path; all but the last have to be directories. -/
def walk (tree : Tree) : Place → List String → Except FileFault Place
  | here, [] => .ok here
  | here, part :: rest => match tree.entry? here with
    | none => .error .notFound
    | some (.file _) => .error .notADirectory
    | some .directory =>
      if Place.nameLimit < part.utf8ByteSize then .error .nameTooLong
      else walk tree (here.next part) rest

/-- Where a path leads. -/
def locate (tree : Tree) (path : String) : Except FileFault Place :=
  if path = "" then .error .notFound
  else if path.toList.contains (Char.ofNat 0) then .error .invalidName
  else tree.walk (Place.startOf path) (parts path)

/-- The text of a file. -/
def read (tree : Tree) (path : String) : Except FileFault String := do
  match tree.entry? (← tree.locate path) with
  | none => .error .notFound
  | some .directory => .error .isADirectory
  | some (.file content) => return content

/-- The names of what lies directly in a place. -/
def namesIn (tree : Tree) (place : Place) : List String :=
  tree.entries.filterMap fun (other, _) => match other.getLast? with
    | some name => if other.dropLast = place ∧ other ≠ Place.root then some name else none
    | none => none

/-- The names in a directory. -/
def list (tree : Tree) (path : String) : Except FileFault (List String) := do
  let place ← tree.locate path
  match tree.entry? place with
  | none => .error .notFound
  | some (.file _) => .error .notADirectory
  | some .directory => return tree.namesIn place

end Tree

/-- Work on the files that may fail; what was done before a failure stays done. -/
abbrev Work := ExceptT FileFault (StateM Tree)

namespace Work

/-- Something found out about the tree. -/
def look (f : Tree → Except FileFault α) : Work α := fun tree => (f tree, tree)

/-- Writes a file; its directory has to be there. -/
def write (path content : String) : Work Unit := fun tree =>
  match tree.locate path with
  | .error fault => (.error fault, tree)
  | .ok place => match tree.entry? place with
    | some .directory => (.error .isADirectory, tree)
    | _ => (.ok (), tree.insert place (.file content))

/-- Makes the directories that are missing from a place down. -/
def makeDirectoriesFrom : Place → List String → Work Unit
  | _, [] => pure ()
  | here, part :: rest => fun tree => match tree.entry? (here.next part) with
    | some .directory => makeDirectoriesFrom (here.next part) rest tree
    | some (.file _) =>
      (.error (if rest.all (· = "") then .alreadyExists else .notADirectory), tree)
    | none =>
      if Place.nameLimit < part.utf8ByteSize then (.error .nameTooLong, tree)
      else makeDirectoriesFrom (here.next part) rest (tree.insert (here.next part) .directory)

/-- Makes a directory and all those above it that are missing. -/
def makeDirectories (path : String) : Work Unit := fun tree =>
  if path.toList.contains (Char.ofNat 0) then (.error .invalidName, tree)
  else makeDirectoriesFrom (Place.startOf path) (parts path) tree

/-- Removes a directory with all that it holds. -/
def removeDirectory (path : String) : Work Unit := fun tree =>
  match tree.locate path with
  | .error fault => (.error fault, tree)
  | .ok place => match tree.entry? place with
    | none => (.error .notFound, tree)
    | some (.file _) => (.error .notADirectory, tree)
    | some .directory => (.ok (), tree.prune place)

/-- Writes a file, in directories that are made for it. -/
def put (path content : String) : Work Unit := do
  makeDirectories (parent path)
  write path content

end Work

namespace Tree

/-- The tree with a file, as far as it can be written. -/
def withFile (tree : Tree) (path content : String) : Tree := (Work.put path content tree).2

/-- The files that are not in another tree, or not with the same content, by path. -/
def changesFrom (tree before : Tree) : List (String × String) :=
  tree.entries.filterMap fun (place, entry) => match entry with
    | .file content =>
      if before.entry? place = some entry then none else some (Place.path place, content)
    | .directory => none

end Tree

end Newsreel.Files
