import VideoEdit.Command.Events
import VideoEdit.Command.Line
import VideoEdit.Config.Reading
import VideoEdit.Edit.Serialized
import VideoEdit.Files.Path
import VideoEdit.Invocation.Fingerprint
import VideoEdit.Log.Traced
/-!
The work of a command line up to its effect. It reads files and may start the media program; what it
leads to is a text to print and, for a run, a file to write before that.
-/
namespace VideoEdit

/-- Where a command gets what it reads, and the media program. -/
structure Surroundings where
  read : String → Except OsError Bytes
  program : Program

/-- What a command leads to: a file to write, if any, and a text to print once that is done. -/
structure Effect where
  write : Option (String × Bytes)
  print : String
  deriving DecidableEq

namespace Settings

def load (read : String → Except OsError Bytes) (path : String) : Except Failure Settings :=
  match read path with
  | .error e => .error (.within ("failed to read config " ++ path) (.plain e.message))
  | .ok content =>
    match Utf8.decode? content with
    | none => .error (.within ("failed to read config " ++ path)
        (.plain "stream did not contain valid UTF-8"))
    | some text =>
      (Settings.ofText text).mapError fun e =>
        .within ("invalid config " ++ path) (.plain e.message)

/-- The settings in a file, or the defaults if there is none. -/
def loadOptional (read : String → Except OsError Bytes) : Option String → Except Failure Settings
  | none => .ok {}
  | some path => load read path

end Settings

def lines (texts : List String) : String := String.join (texts.map (· ++ "\n"))

/-- A JSON value as it is printed: indented, with sorted keys. -/
def Json.printed (value : Json) : String := value.sortKeys.pretty ++ "\n"

def planFor (prompt : String) (policy : DuplicatePolicy) : Traced Plan :=
  if isAllBlank prompt then
    .fail (.coded ⟨.emptyPrompt, "prompt must contain an editing instruction", none⟩)
  else
    let extraction := Prompt.parse prompt
    let plan := extraction.plan policy
    let omissions := Extraction.omissions policy [] extraction.mentions
    ⟨extraction.event :: omissions ++ [plan.event], [], .ok plan⟩

namespace Media

def extensions : List String := ["mp4", "mov", "m4v", "mkv", "webm", "avi"]

def inputExtension (path : String) : Except CodedError String :=
  let extension := String.ofList (lowerAscii ((Path.extension? path).getD "").toList)
  if extension ∈ extensions then .ok extension
  else .error ⟨.unsupportedInput, "unsupported input file '" ++ path ++ "'",
    some (.object [("extension", .text extension), ("allowed", Json.texts extensions)])⟩

/-- Checks that the extension of an output names the format that is written. -/
def checkOutput (path : String) (format : OutputFormat) : Except CodedError Unit :=
  let extension := (Path.extension? path).getD ""
  if OutputFormat.ofExtension? extension = some format then .ok ()
  else .error ⟨.outputFormatMismatch,
    "output '" ++ path ++ "' does not match the planned " ++ format.extension ++ " format",
    some (.object [("provided", .text extension), ("expected", .text format.extension)])⟩

def editedName (stem : Piece) (format : OutputFormat) : Piece :=
  stem ++ ("_edited." ++ format.extension).toList

/-- Where the edited form of a video is written if nothing else is asked for: beside it. -/
def editedPath (input : String) (format : OutputFormat) : String :=
  match Path.split? input with
  | some (directory, name) => Path.join directory (editedName (Path.splitName name).1 format)
  | none => Path.join (Path.trimEnd (Path.pieces input)) (editedName "output".toList format)

def outputPath (input : String) (output : Option String) (format : OutputFormat) :
    Except CodedError String :=
  match output with
  | some path => (checkOutput path format).map fun () => path
  | none => .ok (editedPath input format)

end Media

namespace Task

def coded {α : Type} (result : Except CodedError α) : Traced α :=
  .of (result.mapError Failure.coded)

def answer (plan : Plan) (source : ProgramSource) (program : Program) (request : Request) :
    Traced (Except Failure Bytes) := do
  let start (launch : Launch) : Traced (Except OsError Completion) := do
    Traced.log [request.startEvent source]
    Traced.start program launch
  Traced.log [plan.compiledEvent request.arguments, plan.executionEvent source request]
  Launch.answer start source request

def render (plan : Plan) (source : ProgramSource) (program : Program)
    (inputName outputName : String) (input : Bytes) (settings : Settings) : Traced Bytes := do
  let output ← Traced.of
    (← plan.renderBy (answer plan source program) inputName outputName input settings)
  Traced.log [outputEvent output]
  return output

def printPlan (prompt : String) (json : Bool) (settings : Settings) : Traced Effect := do
  let plan ← planFor prompt settings.duplicates
  let steps := plan.description
  if json then
    return ⟨none, (Json.object [("prompt", .text prompt), ("plan", plan.json),
      ("steps", Json.texts steps)]).printed⟩
  else if steps = [] then
    return ⟨none, lines ["No edits recognised; output will be re-encoded as " ++
      plan.output.extension ++ "."]⟩
  else
    return ⟨none, lines (steps.mapIdx fun i step => (i + 1).repr ++ ". " ++ step)⟩

def printArguments (prompt input : String) (output : Option String) (json : Bool)
    (settings : Settings) : Traced Effect := do
  let plan ← planFor prompt settings.duplicates
  let output := output.getD ("output." ++ plan.output.extension)
  let arguments := plan.compile input output settings
  Traced.log [plan.compiledEvent arguments]
  if json then
    return ⟨none, (Json.object [("plan", plan.json), ("args", Json.texts arguments),
      ("fingerprint", .text (Arguments.fingerprint arguments))]).printed⟩
  else
    return ⟨none, lines arguments⟩

/-- Edits a video. The engine sees input and output under plain names of its own. -/
def edit (prompt input : String) (output : Option String) (source : ProgramSource)
    (settings : Settings) (s : Surroundings) : Traced Effect := do
  let extension ← coded (Media.inputExtension input)
  let plan ← planFor prompt settings.duplicates
  let path ← coded (Media.outputPath input output plan.output)
  let content ← Traced.of ((s.read input).mapError fun e =>
    .within ("failed to read input " ++ input) (.plain e.message))
  let edited ← render plan source s.program ("input." ++ extension)
    ("output." ++ plan.output.extension) content settings
  return ⟨some (path, edited), lines ["Wrote " ++ path]⟩

def perform (task : Task) (settings : Settings) (s : Surroundings) : Traced Effect :=
  match task with
  | .plan prompt json => printPlan prompt json settings
  | .compile prompt input output json => printArguments prompt input output json settings
  | .run prompt input output source => edit prompt input output source settings s

end Task

namespace CommandLine

def versionText : String := "cutplan 0.1.0"

/-- What a command line leads to. Settings are read before anything else. -/
def perform (line : CommandLine) (s : Surroundings) : Traced Effect :=
  match line with
  | .version => pure ⟨none, lines [versionText]⟩
  | .task options t => do
    let settings ← Traced.of (Settings.loadOptional s.read options.config)
    t.perform settings s

end CommandLine

end VideoEdit
