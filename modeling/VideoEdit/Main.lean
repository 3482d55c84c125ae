import VideoEdit.Command.Outcome
/-!
The command line program. It reads the files that a command line names, hands their contents to the
command, and carries out what the command leads to. It starts no media program of its own, so a run
ends with the report that there is none.
-/
namespace VideoEdit

namespace CommandLine

def inputs : CommandLine → List String
  | .task options (.run _ input _ _) => options.config.toList ++ [input]
  | .task options _ => options.config.toList
  | .version => []

def usage : String := "usage: cutplan [options] (plan | compile | run) <prompt> [options]"

end CommandLine

def OsError.ofNumber (number : UInt32) : OsError :=
  if number = 13 then permissionDenied
  else if number = 20 then notDirectory
  else if number = 21 then isDirectory
  else notFound

def OsError.ofFileError : IO.Error → OsError
  | .permissionDenied .. => permissionDenied
  | .inappropriateType _ number _ => ofNumber number
  | .otherError number _ => ofNumber number
  | _ => notFound

def readFile (path : String) : IO (Except OsError Bytes) := do
  try
    return .ok (← IO.FS.readBinFile path).toList
  catch e => return .error (OsError.ofFileError e)

def writeFile (path : String) (content : Bytes) : IO (Except OsError Unit) := do
  try
    IO.FS.writeBinFile path ⟨content.toArray⟩
    return .ok ()
  catch e => return .error (OsError.ofFileError e)

/-- Carries out an effect; what is printed then. -/
def Effect.carryOut (effect : Effect) : IO (Except Failure String) := do
  match effect.write with
  | none => return .ok effect.print
  | some (path, content) =>
    return (← writeFile path content).map (fun () => effect.print)
      |>.mapError fun e => .within ("failed to write output " ++ path) (.plain e.message)

def CommandLine.run (line : CommandLine) : IO UInt32 := do
  let environment ← IO.getEnv "RUST_LOG"
  let files ← line.inputs.mapM fun path => return (path, ← readFile path)
  let read (path : String) := (files.lookup path).getD (.error .notFound)
  let work := line.perform ⟨read, fun _ _ => .error .notFound⟩
  let filter := logFilter environment line.options
  for complaint in logComplaints environment line.options do
    IO.eprintln complaint
  for event in work.events.filter filter.passes do
    IO.eprintln (if line.options.logJson then event.json.compact else event.line)
  let result ← match work.result with
    | .ok effect => effect.carryOut
    | .error failure => pure (.error failure)
  match result with
  | .ok text =>
    IO.print text
    return 0
  | .error failure =>
    let (status, text) := failure.report
    IO.eprint text
    return UInt32.ofNat status

end VideoEdit

def main (arguments : List String) : IO UInt32 := do
  match VideoEdit.CommandLine.read? arguments with
  | some line => line.run
  | none =>
    IO.eprintln VideoEdit.CommandLine.usage
    return 2
