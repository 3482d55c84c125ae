import VideoEdit.Text.Fields
/-!
Paths: pieces between slashes. The name in a path is its last piece that is no empty one and no
single dot; its extension starts behind the last dot of the name, unless that dot leads it.
-/
namespace VideoEdit

/-- What stands between two slashes of a path. -/
abbrev Piece := List Char

namespace Path

/-- The pieces of a path; a leading slash shows as an empty first piece. -/
def pieces (path : String) : List Piece := fields '/' path.toList

/-- Whether a piece leads nowhere: an empty one, or a single dot. -/
def isVoid (piece : Piece) : Bool := piece = [] || piece = ['.']

/-- Drops the pieces at the end that lead nowhere. The first piece says where the path starts and
stays. -/
def trimEnd : List Piece → List Piece
  | [] => []
  | first :: rest => first :: (rest.reverse.dropWhile isVoid).reverse

/-- Splits a path into the pieces of its directory and its name. A path to the root, to the current
directory or to a parent has no name. -/
def split? (path : String) : Option (List Piece × Piece) :=
  let pieces := trimEnd (pieces path)
  match pieces.getLast? with
  | none => none
  | some name =>
    if isVoid name || name = ['.', '.'] then none else some (trimEnd pieces.dropLast, name)

/-- Splits a name at its last dot; a dot that leads the name does not count. -/
def splitName (name : Piece) : Piece × Option Piece :=
  let extension := (name.reverse.takeWhile (· ≠ '.')).reverse
  let stem := name.take (name.length - extension.length - 1)
  if '.' ∈ name ∧ stem ≠ [] then (stem, some extension) else (name, none)

def extension? (path : String) : Option String :=
  (split? path).bind fun (_, name) => (splitName name).2.map String.ofList

def join (directory : List Piece) (name : Piece) : String :=
  String.ofList (['/'].intercalate (directory ++ [name]))

end Path

end VideoEdit
