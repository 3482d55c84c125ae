import VideoEdit.Yaml.Node
import VideoEdit.Yaml.Value
/-!
Why the settings in a YAML document cannot be read, and the wording of each reason.
-/
namespace VideoEdit

namespace Config

/-- A place in a document: where it is in the text, and the keys that lead to it. -/
structure Place where
  mark : Yaml.Mark
  path : List String
  deriving DecidableEq

/-- What is wrong with a node, or with the text where one is missing. -/
inductive Complaint
  | wrongType (found expected : String)
  | wrongValue (found expected : String)
  | unknownField (name : String) (known : List String)
  | unknownVariant (name : String) (known : List String)
  | duplicateField (name : String)
  | faulty (kind : Yaml.FaultKind)
  deriving DecidableEq

def ticked (name : String) : String := "`" ++ name ++ "`"

/-- Names to choose from, in words. -/
def choices : List String → String
  | [] => "nothing"
  | [a] => ticked a
  | [a, b] => ticked a ++ " or " ++ ticked b
  | names => "one of " ++ ", ".intercalate (names.map ticked)

def Complaint.message : Complaint → String
  | wrongType found expected => "invalid type: " ++ found ++ ", expected " ++ expected
  | wrongValue found expected => "invalid value: " ++ found ++ ", expected " ++ expected
  | unknownField name known => "unknown field " ++ ticked name ++ ", expected " ++ choices known
  | unknownVariant name known =>
    "unknown variant " ++ ticked name ++ ", expected " ++ choices known
  | duplicateField name => "duplicate field " ++ ticked name
  | faulty .malformed => "malformed document"
  | faulty .unknownAnchor => "unknown anchor"

/-- A complaint and the place that it is about. -/
structure ReadError where
  place : Place
  complaint : Complaint
  deriving DecidableEq

def ReadError.ofFault (fault : Yaml.Fault) : ReadError := ⟨⟨fault.mark, []⟩, .faulty fault.kind⟩

/-- The wording of an error: its line and column, the keys that lead to it, the complaint, and the
line and column again unless it is at the start of the text. -/
def ReadError.message (e : ReadError) : String :=
  let line := (e.place.mark.line + 1).repr
  let column := (e.place.mark.column + 1).repr
  let keys := if e.place.path = [] then "" else ".".intercalate e.place.path ++ ": "
  let again :=
    if e.place.mark.line = 0 ∧ e.place.mark.column = 0 then ""
    else " at line " ++ line ++ " column " ++ column
  "failed to parse yaml at line " ++ line ++ ", column " ++ column ++ ": " ++ keys ++
    e.complaint.message ++ again

end Config

end VideoEdit
