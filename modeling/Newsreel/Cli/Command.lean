import Newsreel.Cli.Usage

/-!
The commands of the program and the words that state them.
-/

namespace Newsreel.Cli

/-- Runs a document. -/
structure RunCommand where
  file : String
  config : Option String
  /-- Entries of the configuration to be replaced. -/
  overrides : List (String × String)
  testing : Bool
  /-- The run is not entered into the history. -/
  noHistory : Bool
  deriving DecidableEq, Repr

/-- Checks a document without running it. -/
structure ValidateCommand where
  file : String
  json : Bool
  deriving DecidableEq, Repr

/-- Shows runs that are over: one of them, or the latest. -/
structure HistoryCommand where
  job : Option String
  limit : Nat
  runId : Option String
  json : Bool
  deriving DecidableEq, Repr

inductive Command where
  | run (command : RunCommand)
  | validate (command : ValidateCommand)
  | history (command : HistoryCommand)
  /-- Tells whether the programs for encoding are there. -/
  | check
  deriving DecidableEq, Repr

/-- A command line. -/
structure CommandLine where
  verbose : Bool
  command : Command
  deriving DecidableEq, Repr

/-- A key and its value, with an equals sign between them. -/
def keyValue? (text : String) : Option (String × String) :=
  match Text.splitAtChar? '=' text.toList with
  | some ([], _) => none
  | some (key, value) => some (String.ofList key, String.ofList value)
  | none => none

/-- What is said of a text that is no key with a value. -/
def keyValueComplaint (text : String) : String := "Invalid key=value pair: " ++ text

namespace Options

def verbose : OptionSpec := { name := "verbose", short := some 'v', kind := .flag }
def version : OptionSpec := { name := "version", short := some 'V', kind := .version }
def file : OptionSpec := { name := "file", short := some 'f', kind := .single }
def config : OptionSpec := { name := "config", short := some 'c', kind := .single }
def set : OptionSpec :=
  { name := "set", kind := .repeated, fits := fun text => (keyValue? text).isSome }
def testing : OptionSpec := { name := "testing", kind := .flag }
def noHistory : OptionSpec := { name := "no-history", kind := .flag }
def json : OptionSpec := { name := "json", kind := .flag }
def job : OptionSpec := { name := "job", short := some 'j', kind := .single }
def limit : OptionSpec :=
  { name := "limit", short := some 'l', kind := .single, fits := fun text =>
      (Text.count? text).isSome }
def runId : OptionSpec := { name := "run-id", kind := .single }

end Options

/-- How many runs are shown unless another number is given. -/
def defaultLimit : Nat := 10

namespace Command

def names : List String := ["run", "validate", "history", "check", "help"]

/-- The options that a command knows, besides those of all commands. -/
def options : (name : String) → List OptionSpec
  | "run" => [Options.file, Options.config, Options.set, Options.testing, Options.noHistory]
  | "validate" => [Options.file, Options.json]
  | "history" => [Options.job, Options.limit, Options.runId, Options.json]
  | _ => []

/-- The command of a name with the options given to it. -/
def build (name : String) (given : Given) : Except UsageFault Command :=
  match name, given.value? "file" with
  | "run", some file => .ok (.run {
      file, config := given.value? "config"
      overrides := (given.values "set").filterMap keyValue?
      testing := given.has "testing"
      noHistory := given.has "no-history" })
  | "validate", some file => .ok (.validate { file, json := given.has "json" })
  | "history", _ => .ok (.history {
      job := given.value? "job"
      limit := ((given.value? "limit").bind Text.count?).getD defaultLimit
      runId := given.value? "run-id"
      json := given.has "json" })
  | "check", _ => .ok .check
  | _, _ => .error .missingOption

/-- The files that the words of a command name. -/
def files : Command → List String
  | .run command => command.file :: command.config.toList
  | .validate command => [command.file]
  | .history _ | .check => []

/-- Help about a command, about help itself, or about everything. -/
def help : List String → UsageFault
  | [] => .helpWanted
  | [name] => if names.contains name then .helpWanted else .unknownCommand
  | _ => .unknownCommand

end Command

namespace CommandLine

/-- The words from some point before the command on. -/
def readFrom : Reading → List String → Except UsageFault CommandLine
  | reading, [] => do
    let reading ← reading.settle
    .error (if reading.given.isEmpty then .nothingSaid else .missingCommand)
  | reading, word :: rest =>
    if reading.isClosed then
      .error (if Command.names.contains word then .unknownArgument else .unknownCommand)
    else if word = "help" then .error (Command.help rest)
    else if Command.names.contains word then do
      let specs := OptionSpec.help :: Options.verbose :: Command.options word
      let given ← Reading.words specs {} rest
      let command ← Command.build word given
      return { verbose := reading.given.has "verbose" || given.has "verbose", command }
    else
      let known := [OptionSpec.help, Options.verbose, Options.version]
      match reading.next known .unknownCommand word with
      | .ok reading => readFrom reading rest
      | .error fault => .error fault

/-- The command line that some words state; the first word is the program itself. -/
def read (words : List String) : Except UsageFault CommandLine := readFrom {} (words.drop 1)

end CommandLine

end Newsreel.Cli
