import VideoEdit.Failure
import VideoEdit.Text.Blank
import VideoEdit.Text.Escape
/-!
The names under which the engine sees its input and output. They are joined onto a directory and
passed as arguments, so they must be plain file names and must not look like options.
-/
namespace VideoEdit

inductive NameError
  | notPlain (name : String)
  | same (name : String)
  deriving DecidableEq

namespace NameError

def message : NameError → String
  | notPlain name => "resource name '" ++ escapedName name ++ "' must be a plain file name"
  | same _ => "input and output resource names must differ"

def name : NameError → String
  | notPlain name | same name => name

def coded (e : NameError) : CodedError :=
  ⟨.invalidResourceName, e.message, some (.object [("name", .text e.name)])⟩

end NameError

namespace ResourceName

/-- Whether a name is a plain file name: not blank, no reference to a directory, no option, at most
255 bytes, and free of separators and control characters. -/
def isPlain (name : String) : Bool :=
  !isAllBlank name && name != "." && name != ".." && name.toList.head? != some '-' &&
    name.utf8ByteSize ≤ 255 &&
    name.toList.all fun c => c != '/' && c != '\\' && !isControl c

/-- Checks the name of the input, then that of the output, then that they differ. -/
def check (input output : String) : Except NameError Unit :=
  if !isPlain input then .error (.notPlain input)
  else if !isPlain output then .error (.notPlain output)
  else if input = output then .error (.same input)
  else .ok ()

end ResourceName

end VideoEdit
