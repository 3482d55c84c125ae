/-!
The errors of the operating system that commands meet.
-/
namespace VideoEdit

/-- Errors of the operating system. -/
inductive OsError
  | notFound
  | permissionDenied
  | notDirectory
  | isDirectory
  | other (message : String)
  deriving DecidableEq

/-- The system's wording, with its error number. -/
def OsError.message : OsError → String
  | notFound => "No such file or directory (os error 2)"
  | permissionDenied => "Permission denied (os error 13)"
  | notDirectory => "Not a directory (os error 20)"
  | isDirectory => "Is a directory (os error 21)"
  | other message => message

end VideoEdit
