import VideoEdit.Files.OsError
import VideoEdit.Files.Path
import VideoEdit.Text.Utf8
/-!
Files and the directory that a command is started in. Directories are not listed: whatever leads to
a file or to the current directory is one. Reading and writing resolve a path piece by piece; the
system may refuse either, and a file is written as a whole or not at all.
-/
namespace VideoEdit

/-- A place in the file system: the names that lead there from the root. -/
abbrev Location := List Piece

/-- The files and the current directory. -/
structure Workspace where
  current : Location
  files : List (Location × Bytes)

/-- Why the system refuses to read or to write the file at a place, if it does. -/
structure Refusals where
  reading : Location → Option OsError := fun _ => none
  writing : Location → Option OsError := fun _ => none

namespace Workspace

def file? (w : Workspace) (place : Location) : Option Bytes := w.files.lookup place

def isDirectory (w : Workspace) (place : Location) : Bool :=
  place.isPrefixOf w.current ||
    w.files.any fun (file, _) => place.isPrefixOf file && place != file

/-- Whether one can step on from a place: it must be a directory. -/
def enter (w : Workspace) (place : Location) : Except OsError Unit :=
  if w.isDirectory place then .ok ()
  else if (w.file? place).isSome then .error .notDirectory
  else .error .notFound

/-- Where one piece of a path leads. -/
def step (place : Location) (piece : Piece) : Location :=
  if Path.isVoid piece then place
  else if piece = ['.', '.'] then place.dropLast
  else place ++ [piece]

def walk (w : Workspace) (place : Location) : List Piece → Except OsError Location
  | [] => .ok place
  | piece :: rest =>
    match w.enter place with
    | .ok () => walk w (step place piece) rest
    | .error e => .error e

def start (w : Workspace) (path : String) : Location :=
  if path.toList.head? = some '/' then [] else w.current

def read (w : Workspace) (refusals : Refusals) (path : String) : Except OsError Bytes :=
  match w.walk (w.start path) (Path.pieces path) with
  | .error e => .error e
  | .ok place =>
    match refusals.reading place, w.file? place with
    | some e, _ => .error e
    | none, some content => .ok content
    | none, none => .error (if w.isDirectory place then .isDirectory else .notFound)

/-- The place that a path names for writing. The directory must exist; a path that ends with a slash
or a dot can only name a directory. -/
def target (w : Workspace) (path : String) : Except OsError Location :=
  let named := ((Path.pieces path).reverse.dropWhile (· = [])).reverse
  match w.walk (w.start path) named.dropLast with
  | .error e => .error e
  | .ok directory =>
    match w.enter directory with
    | .error e => .error e
    | .ok () =>
      let place := step directory (named.getLastD [])
      if named ≠ Path.pieces path || w.isDirectory place then .error .isDirectory else .ok place

def put (w : Workspace) (place : Location) (content : Bytes) : Workspace :=
  { w with files := (place, content) :: w.files.filter fun file => file.1 ≠ place }

def write (w : Workspace) (refusals : Refusals) (path : String) (content : Bytes) :
    Except OsError Workspace :=
  match w.target path with
  | .error e => .error e
  | .ok place =>
    match refusals.writing place with
    | some e => .error e
    | none => .ok (w.put place content)

end Workspace

end VideoEdit
