import VideoEdit.Command.Work
import VideoEdit.Files.Workspace
import VideoEdit.Log.Filter
/-!
What a command leaves behind: an exit status, what it printed on its two streams, the files, and the
log. A failure leaves the files as they were and prints on the error stream only.
-/
namespace VideoEdit

/-- What a failure leads to: an exit status and a line on the error stream. One with a code is
reported as a JSON object. -/
def Failure.report (f : Failure) : Nat × String :=
  match f.coded? with
  | some e => (CodedError.exitCode, lines [e.envelope.compact])
  | none => (1, lines ["error: " ++ f.message])

/-- What a command leaves behind, and how it started the media program. -/
structure Outcome where
  exit : Nat
  stdout : String
  stderr : String
  workspace : Workspace
  events : List Log.Event
  starts : List Launch

/-- Carries out an effect on files; what is printed then. -/
def Effect.apply (effect : Effect) (w : Workspace) (refusals : Refusals) :
    Except Failure (String × Workspace) :=
  match effect.write with
  | none => .ok (effect.print, w)
  | some (path, content) =>
    match w.write refusals path content with
    | .ok after => .ok (effect.print, after)
    | .error e => .error (.within ("failed to write output " ++ path) (.plain e.message))

namespace CommandLine

/-- The work of an accepted command line, effects included: the text to print and the files after. -/
def work (line : CommandLine) (w : Workspace) (program : Program) (refusals : Refusals) :
    Traced (String × Workspace) := do
  let effect ← line.perform ⟨w.read refusals, program⟩
  Traced.of (effect.apply w refusals)

/-- What an accepted command line leaves behind. -/
def outcome (line : CommandLine) (w : Workspace) (program : Program) (refusals : Refusals := {}) :
    Outcome :=
  let work := line.work w program refusals
  match work.result with
  | .ok (text, after) => ⟨0, text, "", after, work.events, work.starts⟩
  | .error failure => ⟨failure.report.1, "", failure.report.2, w, work.events, work.starts⟩

/-- The filter for the log of a command line. The environment's filter takes precedence if it can be
read. -/
def logFilter (environment : Option String) (options : TaskOptions) : Log.Filter :=
  match environment.bind Log.Filter.ofText? with
  | some filter => filter
  | none => Log.Filter.ofText options.logLevel

def logComplaints (environment : Option String) (options : TaskOptions) : List String :=
  match environment.bind Log.Filter.ofText? with
  | some _ => []
  | none => Log.Filter.complaints options.logLevel

def options : CommandLine → TaskOptions
  | .version => ⟨none, "warn", false⟩
  | .task options _ => options

/-- All that is printed on the error stream but the log: what is said about the filter for the log,
then the report of a failure. -/
def errorText (line : CommandLine) (environment : Option String) (outcome : Outcome) : String :=
  lines (logComplaints environment line.options) ++ outcome.stderr

end CommandLine

end VideoEdit
