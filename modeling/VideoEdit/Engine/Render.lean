import VideoEdit.Engine.Program
import VideoEdit.Invocation.Arguments
/-!
Rendering: a plan is compiled and handed, with the bytes of the input, to an engine that answers
with the bytes of the output. The engine for a media program stages the input alone in a directory,
starts the program there once, and reads the output back.
-/
namespace VideoEdit

/-- What an engine needs for one run. -/
structure Request where
  arguments : List String
  inputName : String
  outputName : String
  input : Bytes

/-- An engine: a name for it and what it does with a request. -/
structure Engine where
  label : String
  execute : Request → Except Failure Bytes

/-- The request for a plan, if the names can be used. -/
def Plan.request? (plan : Plan) (inputName outputName : String) (input : Bytes)
    (settings : Settings) : Except NameError Request :=
  (ResourceName.check inputName outputName).map fun () =>
    ⟨plan.compile inputName outputName settings, inputName, outputName, input⟩

/-- Renders a plan by handing the request for it to what answers requests, which may be an effect. -/
def Plan.renderBy {m : Type → Type} [Monad m] (plan : Plan)
    (answer : Request → m (Except Failure Bytes)) (inputName outputName : String) (input : Bytes)
    (settings : Settings) : m (Except Failure Bytes) :=
  match plan.request? inputName outputName input settings with
  | .error e => pure (.error (.coded e.coded))
  | .ok request => answer request

def Plan.render (plan : Plan) (engine : Engine) (inputName outputName : String) (input : Bytes)
    (settings : Settings) : Except Failure Bytes :=
  Id.run (plan.renderBy (fun request => pure (engine.execute request)) inputName outputName input
    settings)

/-- Where the media program comes from. -/
inductive ProgramSource
  | auto
  | system
  | sidecar
  deriving DecidableEq

/-- The name of a source in messages and logs; the choice is left to the system by default. -/
def ProgramSource.label : ProgramSource → String
  | auto | system => "system"
  | sidecar => "sidecar"

inductive EngineError
  | sidecarUnavailable
  | notInstalled (source : ProgramSource)
  | notStarted (source : ProgramSource) (arguments : List String) (reason : OsError)
  | failed (source : ProgramSource) (arguments : List String) (status : ExitStatus) (tail : String)
  | noOutput (name : String) (reason : OsError)

namespace EngineError

def place (source : ProgramSource) : String :=
  "(mode=" ++ source.label ++ ", resolved_path=ffmpeg"

/-- The wording of an engine's failure; a missing output is the context of the system's reason. -/
def failure : EngineError → Failure
  | sidecarUnavailable => .plain
    ("ffmpeg sidecar mode requested but cutplan was built without `sidecar_ffmpeg`. " ++
      "Rebuild with `--features sidecar_ffmpeg`.")
  | notInstalled source => .plain
    ("ffmpeg executable not found " ++ place source ++
      "). Install ffmpeg (system mode) or use sidecar mode with `--features sidecar_ffmpeg`.")
  | notStarted source arguments reason => .plain
    ("failed to spawn ffmpeg process " ++ place source ++ ", args='" ++
      " ".intercalate arguments ++ "'): " ++ reason.message)
  | failed source arguments status tail => .plain
    ("ffmpeg failed with status " ++ status.text ++ " " ++ place source ++ ", args='" ++
      " ".intercalate arguments ++ "', stderr_tail='" ++ tail ++ "')")
  | noOutput name reason =>
    .within ("ffmpeg produced no output '" ++ name ++ "'") (.plain reason.message)

end EngineError

namespace Launch

/-- The arguments of every start: no banner, errors only, and overwrite without a question. -/
def globalArguments : List String := ["-hide_banner", "-loglevel", "error", "-y"]

/-- The start that answers a request, if the names can be used and there is a program. -/
def ofRequest? (source : ProgramSource) (request : Request) : Except Failure Launch :=
  match ResourceName.check request.inputName request.outputName with
  | .error e => .error (.coded e.coded)
  | .ok () =>
    if source = .sidecar then .error EngineError.sidecarUnavailable.failure
    else .ok ⟨globalArguments ++ request.arguments, [(request.inputName, .file request.input)]⟩

/-- The end of what a program wrote to its error stream: its last 500 characters, trimmed. -/
def errorTail (stderr : Bytes) : String :=
  let text := (Utf8.decodeLossy stderr).toList
  String.ofList (trimBlanks (text.drop (text.length - 500)))

def output (source : ProgramSource) (request : Request) :
    Except OsError Completion → Except EngineError Bytes
  | .error .notFound => .error (.notInstalled source)
  | .error reason => .error (.notStarted source request.arguments reason)
  | .ok run =>
    if run.status.isSuccess then
      (run.directory.read request.outputName).mapError (.noOutput request.outputName)
    else .error (.failed source request.arguments run.status (errorTail run.stderr))

/-- Answers a request by a start of the media program, which is an effect. -/
def answer {m : Type → Type} [Monad m] (start : Launch → m (Except OsError Completion))
    (source : ProgramSource) (request : Request) : m (Except Failure Bytes) :=
  match ofRequest? source request with
  | .error failure => pure (.error failure)
  | .ok launch => do
    let ending ← start launch
    return (output source request ending).mapError EngineError.failure

end Launch

def Engine.ofProgram (source : ProgramSource) (program : Program) : Engine where
  label := source.label
  execute request := Id.run (Launch.answer (fun launch => pure (program.run launch)) source request)

end VideoEdit
