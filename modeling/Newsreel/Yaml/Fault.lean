import Newsreel.Text.Digits

/-!
Why a text cannot be read as YAML, or not as what is asked for.
-/

namespace Newsreel.Yaml

inductive Fault where
  /-- A control character stands in the text. -/
  | control
  /-- A character that begins nothing. -/
  | strangeStart
  /-- A tab where only spaces may indent. -/
  | tab
  /-- What has to be a key is followed by no colon. -/
  | missingColon
  /-- An entry, a key or a value where none may begin. -/
  | misplaced
  | strangeColon
  | unclosedQuote
  | strangeEscape
  /-- A mark between documents within quotes. -/
  | quotedMark
  | strangeHeader
  | strangeAnchor
  | strangeTag
  | strangeDirective
  /-- Something else is expected behind what has been read. -/
  | strangeToken
  /-- The text ends within brackets, before the given line. -/
  | unfinished (line : Nat)
  | unknownAnchor
  | undefinedHandle
  | severalDocuments
  /-- Collections are nested too deeply. -/
  | tooDeep
  /-- The same collections are referred to too often. -/
  | tooManyAliases
  | mismatch (expected : String)
  | numberOutOfRange
  | missingField (name : String)
  | duplicateField (name : String)
  deriving DecidableEq, Repr

def Fault.message : Fault → String
  | .control => "control characters are not allowed"
  | .strangeStart => "found character that cannot start any token"
  | .tab => "found a tab character that violates indentation"
  | .missingColon => "could not find expected ':'"
  | .misplaced => "mapping values are not allowed in this context"
  | .strangeColon => "found unexpected ':'"
  | .unclosedQuote => "found unexpected end of stream"
  | .strangeEscape => "found unknown escape character"
  | .quotedMark => "found unexpected document indicator"
  | .strangeHeader => "did not find expected comment or line break"
  | .strangeAnchor => "did not find expected alphabetic or numeric character"
  | .strangeTag => "did not find expected tag URI"
  | .strangeDirective => "found unknown directive name"
  | .strangeToken => "did not find expected node content"
  | .unfinished line => "did not find expected node content at line " ++ Text.natural line
    ++ " column 1, while parsing a flow node"
  | .unknownAnchor => "unknown anchor"
  | .undefinedHandle => "found undefined tag handle"
  | .severalDocuments =>
    "deserializing from YAML containing more than one document is not supported"
  | .tooDeep => "recursion limit exceeded"
  | .tooManyAliases => "repetition limit exceeded"
  | .mismatch expected => "invalid type: expected " ++ expected
  | .numberOutOfRange => "invalid type: integer out of range"
  | .missingField name => "missing field `" ++ name ++ "`"
  | .duplicateField name => "duplicate entry with key \"" ++ name ++ "\""

end Newsreel.Yaml
