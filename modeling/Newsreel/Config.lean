import Newsreel.Decode

/-!
The configuration of a job: where files lie, what is switched on, credentials, and any further
parameters that templates may read.

The credentials are no part of the configuration's value, so no path reads them.
-/

namespace Newsreel

structure JobConfig where
  jobName : String
  outputPath : String
  tempPath : String
  memoryPath : String
  fixturesPath : String
  /-- Requests are answered from fixture files. -/
  testing : Bool := false
  /-- Videos are encoded by the graphics card. -/
  nvenc : Bool := false
  /-- The name of the video ends in the time of its making. -/
  outTime : Bool := false
  apiKeys : List (String × String) := []
  extra : Fields := []

namespace JobConfig

/-- The directory below which a job keeps its files unless told otherwise. -/
def dataRoot : String := "/data/visuflow"

/-- A job with the given name and nothing else configured. -/
def named (name : String) : JobConfig where
  jobName := name
  outputPath := dataRoot ++ "/out"
  tempPath := dataRoot ++ "/temp"
  memoryPath := dataRoot ++ "/memory"
  fixturesPath := dataRoot ++ "/exampledata"

/-- The name of a job that gives none. -/
def defaultName : String := "job"

/-- The configuration as a value, without the credentials. -/
def toValue (config : JobConfig) : Value :=
  .object (Fields.ofList ([
    ("job_name", .string config.jobName),
    ("output_path", .string config.outputPath),
    ("temp_path", .string config.tempPath),
    ("memory_path", .string config.memoryPath),
    ("fixtures_path", .string config.fixturesPath),
    ("testing", .bool config.testing),
    ("h264_nvenc", .bool config.nvenc),
    ("out_time", .bool config.outTime)] ++ config.extra))

/-- The credential of a name. -/
def apiKey? (config : JobConfig) (name : String) : Option String :=
  (config.apiKeys.find? fun entry => entry.1 = name).map (·.2)

open Decode

def nameField : RecordField String := ⟨"job_name", text, some defaultName⟩
def outputField : RecordField String := ⟨"output_path", path, some (dataRoot ++ "/out")⟩
def tempField : RecordField String := ⟨"temp_path", path, some (dataRoot ++ "/temp")⟩
def memoryField : RecordField String := ⟨"memory_path", path, some (dataRoot ++ "/memory")⟩
def fixturesField : RecordField String := ⟨"fixtures_path", path, some (dataRoot ++ "/exampledata")⟩
def testingField : RecordField Bool := ⟨"testing", flag, some false⟩
def nvencField : RecordField Bool := ⟨"h264_nvenc", flag, some false⟩
def outTimeField : RecordField Bool := ⟨"out_time", flag, some false⟩
def apiKeysField : RecordField (List (String × String)) := ⟨"api_keys", textsByName, some []⟩

def checks : List Check :=
  [nameField.check, outputField.check, tempField.check, memoryField.check, fixturesField.check,
    testingField.check, nvencField.check, outTimeField.check, apiKeysField.check]

/-- The fields that have a meaning of their own; all others are further parameters. -/
def isKnown (name : String) : Bool := checks.any fun check => check.name = name

/-- The configuration that a value states. -/
def ofValue (value : Value) : Except DecodeFault JobConfig := do
  let given ← openRecord "JobConfig" checks value
  return {
    jobName := ← nameField.get given
    outputPath := ← outputField.get given
    tempPath := ← tempField.get given
    memoryPath := ← memoryField.get given
    fixturesPath := ← fixturesField.get given
    testing := ← testingField.get given
    nvenc := ← nvencField.get given
    outTime := ← outTimeField.get given
    apiKeys := ← apiKeysField.get given
    extra := given.filter fun (name, _) => !isKnown name }

/-- The configuration with one entry replaced. Where the entry does not fit, all other entries stay
but the credentials are gone. -/
def set (config : JobConfig) (key : String) (value : Value) :
    Except DecodeFault Unit × JobConfig :=
  let entries := match config.toValue with
    | .object fields => Fields.insert key value fields
    | _ => []
  match ofValue (.object entries) with
  | .ok changed => (.ok (), { changed with apiKeys := config.apiKeys })
  | .error fault => (.error fault, { config with apiKeys := [] })

end JobConfig

end Newsreel
