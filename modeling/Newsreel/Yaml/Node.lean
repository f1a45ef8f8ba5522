import Newsreel.Yaml.Token

/-!
The nodes that the tokens of a text make up.

A node may be given a name by an anchor and then stand in other places too. The names are numbered:
one that comes up again takes the number of the next new name, and a number means the last node that
has been given it.
-/

namespace Newsreel.Yaml

inductive Node where
  | scalar (tag : Option String) (style : ScalarStyle) (text : String)
  | sequence (tag : Option String) (items : List Node)
  | mapping (tag : Option String) (entries : List (Node × Node))
  /-- The node of a number. -/
  | reference (number : Nat)
  deriving Repr, Inhabited

namespace Node

/-- A node of which nothing is written. -/
def blank (tag : Option String) : Node := .scalar tag .plain ""

mutual
/-- The steps in which a node is written: one for what has no parts, and two more than the parts. -/
def size : Node → Nat
  | .scalar _ _ _ => 1
  | .reference _ => 1
  | .sequence _ items => sizeOfItems items + 2
  | .mapping _ entries => sizeOfEntries entries + 2

def sizeOfItems : List Node → Nat
  | [] => 0
  | item :: items => size item + sizeOfItems items

def sizeOfEntries : List (Node × Node) → Nat
  | [] => 0
  | (key, value) :: entries => size key + size value + sizeOfEntries entries
end

end Node

/-- How far the tokens have been read. -/
structure Parse where
  tokens : List Token
  /-- The line behind the text. -/
  lineBehind : Nat
  /-- What handles stand for. -/
  handles : List (String × String)
  /-- The names that anchors have given, with their numbers, the last one first. -/
  names : List (String × Nat) := []
  /-- The numbers of the anchored nodes, in the order in which they begin. -/
  numbers : List Nat := []
  /-- The anchored nodes that are complete, each with its place in that order. -/
  anchored : List (Nat × Node) := []

abbrev Parser (α : Type) := StateT Parse (Except Fault) α

namespace Parser

def fail (fault : Fault) : Parser α := fun _ => .error fault

/-- No node begins where one has to. -/
def missing : Parser α := fun parse =>
  .error (if parse.tokens.isEmpty then .unfinished parse.lineBehind else .strangeToken)

def peek : Parser (Option Token) := fun parse => .ok (parse.tokens.head?, parse)

def advance : Parser Unit := fun parse => .ok ((), { parse with tokens := parse.tokens.tail })

/-- Whether the next token is the given one; it is passed over then. -/
def take (token : Token) : Parser Bool := do
  if (← peek) = some token then
    advance
    return true
  else return false

/-- Whether the next token is one of some kinds, or none is left. -/
def isBefore (tokens : List Token) : Parser Bool := do
  match ← peek with
  | some token => return tokens.contains token
  | none => return true

/-- The name that an anchor gives, if there is one. -/
def anchor? : Parser (Option String) := do
  match ← peek with
  | some (.anchor name) =>
    advance
    return some name
  | _ => return none

def tagText? : Parser (Option TagText) := do
  match ← peek with
  | some (.tag tag) =>
    advance
    return some tag
  | _ => return none

/-- A tag with its handle replaced by what it stands for. -/
def resolveTag (tag : TagText) : Parser String := fun parse =>
  if tag.handle.isEmpty then .ok (tag.suffix, parse)
  else match parse.handles.find? fun entry => entry.1 = tag.handle with
    | some (_, meaning) => .ok (meaning ++ tag.suffix, parse)
    | none => .error .undefinedHandle

/-- What stands before a node, in either order: an anchor and a tag. -/
def properties : Parser (Option String × Option String) := do
  let first ← anchor?
  let tag ← tagText?
  let anchor ← match first with
    | some name => pure (some name)
    | none => if tag.isSome then anchor? else pure none
  match tag with
  | some tag => return (anchor, some (← resolveTag tag))
  | none => return (anchor, none)

/-- Gives a name to the node that begins here; the place of the node among the anchored ones. -/
def begin (name : String) : Parser Nat := fun parse =>
  let number := (parse.names.map (·.1)).eraseDups.length
  .ok (parse.numbers.length, { parse with
    names := (name, number) :: parse.names
    numbers := parse.numbers ++ [number] })

/-- The node of a name, which has to have been given. -/
def referred (name : String) : Parser Node := fun parse =>
  match parse.names.find? fun entry => entry.1 = name with
  | some (_, number) => .ok (.reference number, parse)
  | none => .error .unknownAnchor

/-- A scalar with its tag. An exclamation mark alone leaves the tag open. -/
def scalar (tag : Option String) (style : ScalarStyle) (text : String) : Node :=
  .scalar (if tag = some "!" then none else tag) style text

mutual
/-- A node. In a block it may be a collection by indentation; `sameColumn` says that the entries of
a sequence may stand in the column of the key before them. -/
def node (inBlock sameColumn : Bool) : (most : Nat) → Parser Node
  | 0 => fail .tooDeep
  | most + 1 => do
    match ← peek with
    | some (.reference name) =>
      advance
      referred name
    | _ =>
      let (anchor, tag) ← properties
      match anchor with
      | none => content inBlock sameColumn false tag most
      | some name =>
        let place ← begin name
        let node ← content inBlock sameColumn true tag most
        modify fun parse => { parse with anchored := (place, node) :: parse.anchored }
        return node

/-- What follows the properties of a node. -/
def content (inBlock sameColumn isAnchored : Bool) (tag : Option String) :
    (most : Nat) → Parser Node
  | 0 => fail .tooDeep
  | most + 1 => do
    match ← peek with
    | some (.scalar style text) =>
      advance
      return scalar tag style text
    | some .flowSequenceStart =>
      advance
      return .sequence tag (← flowItems true most)
    | some .flowMappingStart =>
      advance
      return .mapping tag (← flowEntries true most)
    | token =>
      if sameColumn ∧ token = some .blockEntry then return .sequence tag (← columnItems most)
      else if inBlock ∧ token = some .blockSequenceStart then
        advance
        return .sequence tag (← blockItems most)
      else if inBlock ∧ token = some .blockMappingStart then
        advance
        return .mapping tag (← blockEntries most)
      else if isAnchored ∨ tag.isSome then return .blank tag
      else missing

/-- A node, unless one of some tokens comes first. -/
def nodeUnless (tokens : List Token) (inBlock sameColumn : Bool) : (most : Nat) → Parser Node
  | 0 => fail .tooDeep
  | most + 1 => do
    if ← isBefore tokens then return .blank none else node inBlock sameColumn most

/-- The items of a sequence by indentation. -/
def blockItems : (most : Nat) → Parser (List Node)
  | 0 => fail .tooDeep
  | most + 1 => do
    if ← take .blockEntry then
      let item ← nodeUnless [.blockEntry, .blockEnd] true false most
      return item :: (← blockItems most)
    else if ← take .blockEnd then return []
    else fail .strangeToken

/-- The items of a sequence in the column of its key. -/
def columnItems : (most : Nat) → Parser (List Node)
  | 0 => fail .tooDeep
  | most + 1 => do
    if ← take .blockEntry then
      let item ← nodeUnless [.blockEntry, .key, .value, .blockEnd] true false most
      return item :: (← columnItems most)
    else return []

/-- The entries of a mapping by indentation. -/
def blockEntries : (most : Nat) → Parser (List (Node × Node))
  | 0 => fail .tooDeep
  | most + 1 => do
    if ← take .key then
      let key ← nodeUnless [.key, .value, .blockEnd] true true most
      let value ← if ← take .value then nodeUnless [.key, .value, .blockEnd] true true most
        else pure (Node.blank none)
      return (key, value) :: (← blockEntries most)
    else if ← take .blockEnd then return []
    else fail .strangeToken

/-- The items of a sequence in brackets. A single entry of a mapping may be one. -/
def flowItems (isFirst : Bool) : (most : Nat) → Parser (List Node)
  | 0 => fail .tooDeep
  | most + 1 => do
    if ← take .flowSequenceEnd then return []
    else
      let separated ← if isFirst then pure true else take .flowEntry
      if !separated then fail .strangeToken
      else if ← take .flowSequenceEnd then return []
      else if ← take .key then
        let entry ← flowPair most
        return .mapping none [entry] :: (← flowItems false most)
      else
        let item ← node false false most
        return item :: (← flowItems false most)

/-- A single entry of a mapping as an item. A key that is not written takes the token behind it
along. -/
def flowPair : (most : Nat) → Parser (Node × Node)
  | 0 => fail .tooDeep
  | most + 1 => do
    let key ← if ← isBefore [.value, .flowEntry, .flowSequenceEnd] then do
        advance
        pure (Node.blank none)
      else node false false most
    let value ← if ← take .value then nodeUnless [.flowEntry, .flowSequenceEnd] false false most
      else pure (Node.blank none)
    return (key, value)

/-- The entries of a mapping in brackets. A node alone is a key without a value. -/
def flowEntries (isFirst : Bool) : (most : Nat) → Parser (List (Node × Node))
  | 0 => fail .tooDeep
  | most + 1 => do
    if ← take .flowMappingEnd then return []
    else
      let separated ← if isFirst then pure true else take .flowEntry
      if !separated then fail .strangeToken
      else if ← take .flowMappingEnd then return []
      else
        let entry ← if ← take .key then do
            let key ← nodeUnless [.value, .flowEntry, .flowMappingEnd] false false most
            let value ← if ← take .value then
                nodeUnless [.flowEntry, .flowMappingEnd] false false most
              else pure (Node.blank none)
            pure (key, value)
          else do
            let key ← node false false most
            pure (key, Node.blank none)
        return entry :: (← flowEntries false most)
end

/-- What handles stand for unless a directive says otherwise. -/
def defaultHandles : List (String × String) := [("!", "!"), ("!!", "tag:yaml.org,2002:")]

/-- The directives before a document, with the version if it has been stated. -/
def directives (version : Bool) (handles : List (String × String)) :
    List Token → Except Fault (List (String × String) × List Token)
  | .directive (.version major minor) :: tokens =>
    if version || major ≠ 1 || (minor ≠ 1 && minor ≠ 2) then .error .strangeDirective
    else directives true handles tokens
  | .directive (.handle handle meaning) :: tokens =>
    if handles.any fun entry => entry.1 = handle then .error .strangeDirective
    else directives version (handles ++ [(handle, meaning)]) tokens
  | tokens => .ok (handles ++ defaultHandles, tokens)

/-- Whether a token ends a document that has been begun by a mark. -/
def endsDocument : Option Token → Bool
  | none | some (.directive _) | some .documentStart | some .documentEnd => true
  | _ => false

end Parser

/-- A document: its node, if there is one, and the nodes that have been given names. -/
structure Tree where
  root : Option Node
  /-- The nodes by number. -/
  anchored : List (Nat × Node)

namespace Tree

/-- The node of each anchored place by its number, the last one first. -/
def byNumber (parse : Parse) : List (Nat × Node) :=
  ((List.range parse.numbers.length).reverse.zip parse.numbers.reverse).filterMap
    fun (place, number) =>
      (parse.anchored.find? fun entry => entry.1 = place).map fun entry => (number, entry.2)

/-- The steps of every node take at most so many more. -/
def depthFor (tokens : List Token) : Nat := 4 * tokens.length + 8

/-- The document that some tokens make up. There may be only one. -/
def ofTokens (tokens : List Token) (lineBehind : Nat) : Except Fault Tree :=
  if tokens.isEmpty then .ok ⟨none, []⟩
  else do
    let (handles, rest) ← Parser.directives false [] tokens
    let isMarked := rest.head? = some .documentStart
    if !isMarked ∧ rest.length < tokens.length then .error .strangeDirective
    else
      let rest := if isMarked then rest.tail else rest
      let start : Parse := { tokens := rest, lineBehind, handles }
      let (root, parse) ← if isMarked ∧ Parser.endsDocument rest.head? then
          .ok (Node.blank none, start)
        else Parser.node true false (depthFor rest) start
      if parse.tokens.all (· = .documentEnd) then .ok ⟨some root, byNumber parse⟩
      else .error .severalDocuments

/-- The document that a text states. -/
def read (text : String) : Except Fault Tree := do
  let glyphs ← Rest.ofText text
  ofTokens (← Token.ofGlyphs glyphs) glyphs.lineBehind

end Tree

end Newsreel.Yaml
