import VideoEdit.Yaml.Cursor
/-!
The tokens of YAML. Indentation shows in them as the starts and ends of block collections.
-/
namespace VideoEdit

namespace Yaml

inductive ScalarStyle
  | plain
  | singleQuoted
  | doubleQuoted
  | literal
  | folded
  deriving DecidableEq

/-- What a token is. A tag is given by its handle and its suffix; an unreadable token stands where
the text is no token. -/
inductive TokenKind
  | streamEnd
  | unreadable
  | version (major minor : Nat)
  | tagPrefix (handle expansion : List Char)
  | documentStart
  | documentEnd
  | blockSequenceStart
  | blockMappingStart
  | blockEnd
  | flowSequenceStart
  | flowSequenceEnd
  | flowMappingStart
  | flowMappingEnd
  | blockEntry
  | flowEntry
  | key
  | value
  | reference (name : List Char)
  | anchor (name : List Char)
  | tag (handle suffix : List Char)
  | scalar (style : ScalarStyle) (text : List Char)
  deriving DecidableEq

/-- A token and the places where it starts and stops. -/
structure Token where
  kind : TokenKind
  start : Mark
  stop : Mark
  deriving DecidableEq

end Yaml

end VideoEdit
