import VideoEdit.Text.Utf8
import VideoEdit.Yaml.ScalarText
/-!
Anchors, tags and directives. A tag is read as a handle and a suffix, in which percent signs escape
bytes of UTF-8.
-/
namespace VideoEdit

namespace Yaml

/-- Reads the name of an anchor or alias, which the cursor stands at the sign of. -/
def anchorName? (c : Cursor) : Option (List Char × Cursor) :=
  let (name, c) := (c.skip 1).span isNameChar
  let ends := atGap c.rest || c.at? fun x => ['?', ':', ',', ']', '}', '%', '@', '\x60'].contains x
  if name ≠ [] && ends then some (name, c) else none

namespace Tag

/-- A character of a tag; a few more may stand in a tag written in full. -/
def isUriChar (full : Bool) (c : Char) : Bool :=
  isNameChar c ||
    [';', '/', '?', ':', '@', '&', '=', '+', '$', '.', '%', '!', '~', '*', '\'', '(',
      ')'].contains c ||
    (full && [',', '[', ']'].contains c)

/-- The bytes of a text in which a percent sign and two digits stand for one byte. -/
def unescape? : List Char → Option Bytes
  | [] => some []
  | '%' :: a :: b :: rest => do
    let high ← digitValue? a
    let low ← digitValue? b
    return UInt8.ofNat (16 * high + low) :: (← unescape? rest)
  | '%' :: _ => none
  | c :: rest => (unescape? rest).map (Utf8.encode (String.singleton c) ++ ·)

/-- Reads characters of a tag and resolves their escapes. -/
def uri? (full : Bool) (c : Cursor) : Option (List Char × Cursor) := do
  let (raw, c) := c.span (isUriChar full)
  let text ← Utf8.decode? (← unescape? raw)
  return (text.toList, c)

/-- Reads an exclamation mark, letters, and a second exclamation mark if there is one. -/
def handle? (c : Cursor) : Option (List Char × Cursor) :=
  if !c.isAt '!' then none
  else
    let (letters, c) := (c.skip 1).span isNameChar
    if c.isAt '!' then some ('!' :: letters ++ ['!'], c.skip 1) else some ('!' :: letters, c)

/-- Whether a handle is complete: it ends with a second exclamation mark. -/
def isComplete (handle : List Char) : Bool := 1 < handle.length && handle.getLast? == some '!'

/-- Reads a tag, which the cursor stands at, as handle and suffix. A tag written in full has no
handle, and neither has a lone exclamation mark. -/
def read? (flow : Bool) (c : Cursor) : Option (List Char × List Char × Cursor) := do
  let (handle, suffix, c) ←
    if (c.skip 1).isAt '<' then do
      let (suffix, c) ← uri? true (c.skip 2)
      if suffix = [] || !c.isAt '>' then none
      pure (([] : List Char), suffix, c.skip 1)
    else do
      let (handle, c) ← handle? c
      let (suffix, c) ← uri? false c
      if isComplete handle then
        if suffix = [] then none
        pure (handle, suffix, c)
      else
        let suffix := handle.drop 1 ++ suffix
        pure (if suffix = [] then ([], ['!'], c) else (['!'], suffix, c))
  if (flow && c.isAt ',') || atGap c.rest then return (handle, suffix, c) else none

end Tag

namespace Directive

def number? (c : Cursor) : Option (Nat × Cursor) :=
  let (digits, c) := c.span Char.isDigit
  if digits = [] || 9 < digits.length then none else some (Nat.ofDigitChars 10 digits 0, c)

def version? (c : Cursor) : Option (TokenKind × Cursor) := do
  let (major, c) ← number? (c.span isGap).2
  if !c.isAt '.' then none
  let (minor, c) ← number? (c.skip 1)
  return (.version major minor, c)

/-- Reads a tag handle and what it stands for. -/
def tagPrefix? (c : Cursor) : Option (TokenKind × Cursor) := do
  let (handle, c) ← Tag.handle? (c.span isGap).2
  if handle ≠ ['!'] && !Tag.isComplete handle then none
  if !c.at? isGap then none
  let (expansion, c) ← Tag.uri? true (c.span isGap).2
  if expansion = [] || !atGap c.rest then none
  return (.tagPrefix handle expansion, c)

/-- Reads a directive, which the cursor stands at, to the end of its line. -/
def read? (c : Cursor) : Option (TokenKind × Cursor) := do
  let (name, c) := (c.skip 1).span isNameChar
  if !atGap c.rest then none
  let (kind, c) ←
    if name = "YAML".toList then version? c
    else if name = "TAG".toList then tagPrefix? c
    else none
  return (kind, ← c.restOfLine?)

end Directive

end Yaml

end VideoEdit
