import VideoEdit.Command.Options
import VideoEdit.Engine.Render
/-!
The command line: options for every task, then the task and what it needs. Options for every task
may also stand behind the task, where they take precedence.
-/
namespace VideoEdit

/-- What a command is asked to do with a prompt. -/
inductive Task
  | plan (prompt : String) (json : Bool)
  | compile (prompt input : String) (output : Option String) (json : Bool)
  | run (prompt input : String) (output : Option String) (source : ProgramSource)
  deriving DecidableEq

/-- The options for every task: a file with settings, what is logged, and in which form. -/
structure TaskOptions where
  config : Option String
  logLevel : String
  logJson : Bool
  deriving DecidableEq

/-- A command line that is accepted. -/
inductive CommandLine
  | version
  | task (options : TaskOptions) (task : Task)
  deriving DecidableEq

def ProgramSource.ofName? (name : String) : Option ProgramSource :=
  if name = "auto" then some auto
  else if name = "system" then some system
  else if name = "sidecar" then some sidecar
  else none

/-- The options for every task, from those in front of the task and those behind it. -/
def TaskOptions.ofGiven (leading trailing : CommandLine.Given) : TaskOptions where
  config := (trailing.value? "config").or (leading.value? "config")
  logLevel := ((trailing.value? "log-level").or (leading.value? "log-level")).getD "warn"
  logJson := trailing.has "log-json" || leading.has "log-json"

namespace CommandLine

def text (name : String) (letter : Option Char) : OptionKind := ⟨name, letter, .value fun _ => true⟩

/-- An option that takes the path of a file, which cannot be empty. -/
def path (name : String) (letter : Option Char) : OptionKind := ⟨name, letter, .value (· ≠ "")⟩

def flag (name : String) : OptionKind := ⟨name, none, .nothing⟩

def sharedKinds : List OptionKind := [path "config" none, text "log-level" none, flag "log-json"]

def leadingKinds : List OptionKind := sharedKinds ++ [⟨"version", some 'V', .version⟩]

def planKinds : List OptionKind := sharedKinds ++ [flag "json"]

/-- The options for compiling a plan. Its names are not looked up as files. -/
def compileKinds : List OptionKind :=
  sharedKinds ++ [text "input" (some 'i'), text "output" (some 'o'), flag "json"]

def runKinds : List OptionKind :=
  sharedKinds ++ [path "input" (some 'i'), path "output" (some 'o'),
    ⟨"ffmpeg", none, .value fun name => (ProgramSource.ofName? name).isSome⟩]

/-- The single word of a task is its prompt. -/
def prompt? (g : Given) : Option String :=
  match g.words with
  | [prompt] => some prompt
  | _ => none

/-- The task with a name, from what is given behind it. -/
def readTask? (name : String) (rest : List String) : Option (Given × Task) :=
  if name = "plan" then do
    let g ← readAll? planKinds .none rest
    return (g, .plan (← prompt? g) (g.has "json"))
  else if name = "compile" then do
    let g ← readAll? compileKinds .none rest
    return (g, .compile (← prompt? g) (← g.value? "input") (g.value? "output") (g.has "json"))
  else if name = "run" then do
    let g ← readAll? runKinds .none rest
    let source := ((g.value? "ffmpeg").bind ProgramSource.ofName?).getD .auto
    return (g, .run (← prompt? g) (← g.value? "input") (g.value? "output") source)
  else none

/-- Reads options up to the task, and the task. -/
def readFrom? (leading : Given) : List String → Option CommandLine
  | [] => none
  | word :: rest =>
    match readWord leadingKinds word with
    | .word => (readTask? word rest).map fun (g, t) => .task (.ofGiven leading g) t
    | .given kind value => (leading.add? kind value).bind fun g => readFrom? g rest
    | .awaiting kind =>
      match rest with
      | value :: rest =>
        if isValue value then (leading.add? kind value).bind fun g => readFrom? g rest else none
      | [] => none
    | .version => some .version
    | .unknown => none

def read? (words : List String) : Option CommandLine := readFrom? .none words

end CommandLine

end VideoEdit
