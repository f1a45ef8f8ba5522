import Newsreel.Calendar.Fault
import Newsreel.Decode
import Newsreel.Json.Fault
import Newsreel.Kind

/-!
What can go wrong while a document is compiled and run.

A failure is a cause; failing fetches, transforms and sequences add one layer each, from the step
inwards, that says what was being done. The layers are peeled off by `StepError.root`.
-/

namespace Newsreel

/-- Why a resolved value cannot be used. -/
inductive ValueFault where
  | unclosedBrace
  | emptyPlaceholder
  | unsupportedFormat (spec : String)
  | emptySegment
  | emptyPath
  | aliasTooDeep
  | readOnly
  | notAnIndex
  | scalarOnTheWay (segment : String)
  | scalarAtTheEnd (segment : String)
  | noArray
  | notAnArray (kind : String)
  | notAText (json : String)
  | numberNotInteger
  | notAnInteger (text : String)
  | noSuchDate (format : String) (fault : Calendar.DateFault)
  | noChoiceList
  | noChoices
  | unknownMethod (name : String)
  | notAMapping (json : String)
  | notAscii
  | notLatin1 (c : Char)
  | unsupportedEncoding (label : String)
  | daysOutOfRange (days : Float)
  | nothingToRender
  | tooManyImages (images clips : Nat)
  | notANumber (text : String)
  | noDuration (raw : String)

namespace ValueFault

def message : ValueFault → String
  | .unclosedBrace => "unclosed '\x7b' in template"
  | .emptyPlaceholder => "empty placeholder"
  | .unsupportedFormat spec => "unsupported format spec '" ++ spec ++ "'"
  | .emptySegment => "empty path segment"
  | .emptyPath => "empty path"
  | .aliasTooDeep => "alias chain too deep"
  | .readOnly => "path refers to a read-only binding"
  | .notAnIndex => "non-numeric index into array"
  | .scalarOnTheWay segment => "cannot descend into scalar at '" ++ segment ++ "'"
  | .scalarAtTheEnd segment => "cannot insert '" ++ segment ++ "' into a scalar"
  | .noArray => "expected an array or a path to one"
  | .notAnArray kind => "expected an array, found " ++ kind
  | .notAText json => "expected a string, found " ++ json
  | .numberNotInteger => "not an integer"
  | .notAnInteger text => "'" ++ text ++ "' is not an integer"
  | .noSuchDate format fault =>
    "does not match date format '" ++ format ++ "': " ++ fault.message
  | .noChoiceList => "expected a list of choices"
  | .noChoices => "no choices given"
  | .unknownMethod name => "unknown method '" ++ name ++ "'"
  | .notAMapping json => "expected a mapping, got " ++ json
  | .notAscii => "body is not ASCII"
  | .notLatin1 c => "'" ++ String.singleton c ++ "' is not representable in latin-1"
  | .unsupportedEncoding label => "unsupported encoding '" ++ label ++ "'"
  | .daysOutOfRange days => Decimal.plainLayout.write days ++ " days is out of range"
  | .nothingToRender => "nothing to render"
  | .tooManyImages images clips =>
    Text.natural images ++ " images for " ++ Text.natural clips ++ " audio clips"
  | .notANumber text => "'" ++ text ++ "' is not a number"
  | .noDuration raw => "ffprobe reported no duration: '" ++ raw ++ "'"

end ValueFault

/-- Why the parameters of a step do not fit its type. -/
inductive ShapeFault where
  | decode (fault : DecodeFault)
  | noKeys
  | unmatchedNewKeys (newKeys keys : Nat)
  | unmatchedRequests (keys requests : Nat)
  | noPattern
  | negativeTransition

def ShapeFault.message : ShapeFault → String
  | .decode fault => fault.message
  | .noKeys => "no 'keys' or 'key' given"
  | .unmatchedNewKeys newKeys keys =>
    Text.natural newKeys ++ " new_keys for " ++ Text.natural keys ++ " keys"
  | .unmatchedRequests keys requests =>
    Text.natural keys ++ " keys in steps_value for " ++ Text.natural requests ++ " requests"
  | .noPattern => "custom sequence without a pattern"
  | .negativeTransition => "negative transition length"

/-- What the file system refuses. -/
inductive FileFault where
  | notFound
  | notPermitted
  | alreadyExists
  | notADirectory
  | isADirectory
  | invalidName
  | notEmpty
  | nameTooLong
  | notText
  /-- What a program is started with holds a character that ends texts. -/
  | invalidArgument
  deriving DecidableEq, Repr

def FileFault.message : FileFault → String
  | .notFound => "No such file or directory (os error 2)"
  | .notPermitted => "Permission denied (os error 13)"
  | .alreadyExists => "File exists (os error 17)"
  | .notADirectory => "Not a directory (os error 20)"
  | .isADirectory => "Is a directory (os error 21)"
  | .invalidName => "file name contained an unexpected NUL byte"
  | .notEmpty => "Directory not empty (os error 39)"
  | .nameTooLong => "File name too long (os error 36)"
  | .notText => "stream did not contain valid UTF-8"
  | .invalidArgument => "nul byte found in provided data"

/-- Where an exchange with a server fails. -/
inductive WebFault where
  /-- The address or a header cannot be sent. -/
  | builder
  | redirect
  /-- The body is not what the response format asks for. -/
  | decode
  | body
  /-- The server cannot be reached. -/
  | request
  deriving DecidableEq, Repr

def WebFault.message : WebFault → String
  | .builder => "<builder>"
  | .redirect => "<redirect>"
  | .decode => "<decode>"
  | .body => "<body>"
  | .request => "<request>"

inductive StepError where
  /-- A path leads nowhere, in the bindings or in the data. -/
  | unresolved (path : String)
  /-- A server answered with a status other than success. -/
  | refused (url : String) (status : Nat) (body : String)
  | unknownType (registry : Registry) (name : String)
  | fetch (kind : FetchKind) (name : String) (source : StepError)
  | transform (kind : TransformKind) (key : String) (source : StepError)
  | sequence (kind : SequenceKind) (source : StepError)
  /-- The encoder ended with a code other than zero. -/
  | encoding (code : Int) (output : String)
  | notImplemented (kind : TransformKind)
  | invalidStep (type : String) (fault : ShapeFault)
  | invalidValue (field : String) (fault : ValueFault)
  | missingApiKey (name : String)
  | cacheMiss (what : String)
  | file (fault : FileFault)
  | json (fault : Json.Fault)
  | web (fault : WebFault)
  /-- A number was to be written with more decimal places than can be written. It ends the run and
  is nothing that a step could report. -/
  | unwritable (places : Nat)

namespace StepError

def message : StepError → String
  | .unresolved path => "could not resolve data path '" ++ path ++ "'"
  | .refused url status body =>
    "request to " ++ url ++ " failed with status " ++ Text.natural status ++ ": " ++ body
  | .unknownType registry name => "unknown " ++ registry.name ++ " type: '" ++ name ++ "'"
  | .fetch kind name source =>
    "fetch step '" ++ kind.name ++ "' (" ++ name ++ ") failed: " ++ source.message
  | .transform kind key source =>
    "transform '" ++ kind.name ++ "' on key '" ++ key ++ "' failed: " ++ source.message
  | .sequence kind source => "sequence '" ++ kind.name ++ "' failed: " ++ source.message
  | .encoding code output =>
    "encoder exited with code " ++ Text.integer code ++ ": " ++ output
  | .notImplemented kind => "'" ++ kind.name ++ "' is not implemented"
  | .invalidStep type fault => "invalid '" ++ type ++ "' step: " ++ fault.message
  | .invalidValue field fault => "invalid value for '" ++ field ++ "': " ++ fault.message
  | .missingApiKey name => "no API key configured under '" ++ name ++ "'"
  | .cacheMiss what => "no cached data for " ++ what
  | .file fault => "I/O error: " ++ fault.message
  | .json fault => "JSON error: " ++ fault.message
  | .web fault => "HTTP error: " ++ fault.message
  | .unwritable places => Text.natural places ++ " decimal places cannot be written"

/-- The cause below all layers. -/
def root : StepError → StepError
  | .fetch _ _ source => source.root
  | .transform _ _ source => source.root
  | .sequence _ source => source.root
  | error => error

/-- No snapshot was there to read. -/
def isCacheMiss (error : StepError) : Bool := match error.root with
  | .cacheMiss _ => true
  | _ => false

/-- The run did not end with a report. -/
def isAbort (error : StepError) : Bool := match error.root with
  | .unwritable _ => true
  | _ => false

/-- Some type name is in no table. -/
def isUnknownType (error : StepError) : Bool := match error.root with
  | .unknownType _ _ => true
  | _ => false

end StepError

end Newsreel
