import VideoEdit.Json
import VideoEdit.Text.Quoted
/-!
Log events and their two written forms, a line of text and a JSON object.
-/
namespace VideoEdit

namespace Log

inductive Level
  | error
  | warn
  | info
  | debug
  | trace
  deriving DecidableEq

namespace Level

def all : List Level := [error, warn, info, debug, trace]

/-- The place of a level in that order, counted from one. -/
def rank : Level → Nat
  | error => 1
  | warn => 2
  | info => 3
  | debug => 4
  | trace => 5

def name : Level → String
  | error => "ERROR"
  | warn => "WARN"
  | info => "INFO"
  | debug => "DEBUG"
  | trace => "TRACE"

end Level

/-- The value of a field: a count, a string, or words that are never put in quotes. -/
inductive Value
  | count (n : Nat)
  | text (s : String)
  | words (s : String)
  deriving DecidableEq

def Value.json : Value → Json
  | count n => .int n
  | text s | words s => .text s

def Value.line : Value → String
  | count n => n.repr
  | text s => quotedText s
  | words s => s

/-- One thing that happened: how much it matters, which part of the program it concerns, and what
it was. -/
structure Event where
  level : Level
  target : String
  message : String
  fields : List (String × Value)
  deriving DecidableEq

namespace Event

def json (e : Event) : Json :=
  .object [("level", .text e.level.name),
    ("fields", .object (("message", .text e.message) :: e.fields.map fun (k, v) => (k, v.json))),
    ("target", .text e.target)]

def line (e : Event) : String :=
  " ".intercalate ((e.level.name ++ " " ++ e.target ++ ": " ++ e.message) ::
    e.fields.map fun (k, v) => k ++ "=" ++ v.line)

end Event

end Log

end VideoEdit
