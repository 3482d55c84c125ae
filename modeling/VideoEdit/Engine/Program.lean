import VideoEdit.Engine.ResourceName
import VideoEdit.Files.OsError
import VideoEdit.Text.Utf8
/-!
The media program as the engine meets it: any function from arguments and the contents of a
directory to what the run leaves behind, or to a reason why it did not start.
-/
namespace VideoEdit

/-- A name in a directory: a file, or something that reading fails on. -/
inductive Entry
  | file (content : Bytes)
  | unreadable (reason : OsError)
  deriving DecidableEq

abbrev Directory := List (String × Entry)

def Directory.read (d : Directory) (name : String) : Except OsError Bytes :=
  match d.lookup name with
  | some (.file content) => .ok content
  | some (.unreadable reason) => .error reason
  | none => .error .notFound

/-- How a program ended. -/
inductive ExitStatus
  | exited (code : Nat)
  | signaled (number : Nat) (name : String)
  deriving DecidableEq

def ExitStatus.isSuccess : ExitStatus → Bool
  | exited code => code == 0
  | signaled .. => false

def ExitStatus.text : ExitStatus → String
  | exited code => "exit status: " ++ code.repr
  | signaled number name => "signal: " ++ number.repr ++ " (" ++ name ++ ")"

structure Completion where
  directory : Directory
  status : ExitStatus
  stderr : Bytes

/-- A program: what it does with arguments, started in a directory, or why it does not start. -/
abbrev Program := List String → Directory → Except OsError Completion

/-- A start of a program: its arguments and the directory it starts in. -/
structure Launch where
  arguments : List String
  directory : Directory
  deriving DecidableEq

def Program.run (program : Program) (launch : Launch) : Except OsError Completion :=
  program launch.arguments launch.directory

end VideoEdit
