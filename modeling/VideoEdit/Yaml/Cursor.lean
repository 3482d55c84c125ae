/-!
A place in a YAML text, and the character classes of YAML. A line break is a carriage return and
line feed together, either alone, or one of three further separators.
-/
namespace VideoEdit

namespace Yaml

/-- A place: characters from the start of the text, lines, and characters from the start of the
line, all counted from zero. -/
structure Mark where
  index : Nat
  line : Nat
  column : Nat
  deriving DecidableEq

/-- A place and the text from there on. -/
structure Cursor where
  mark : Mark
  rest : List Char

def isBreak (c : Char) : Bool :=
  c == '\n' || c == '\r' || c == '\u0085' || c == '\u2028' || c == '\u2029'

def isGap (c : Char) : Bool := c == ' ' || c == '\t'

/-- A letter of a name: of an anchor, a tag handle or a directive. -/
def isNameChar (c : Char) : Bool := c.isAlphanum || c == '_' || c == '-'

/-- Whether a character may stand in a YAML text at all. -/
def isAllowed (c : Char) : Bool :=
  c == '\t' || c == '\n' || c == '\r' || (' ' ≤ c && c ≤ '~') || c == '\u0085' ||
    ('\u00A0' ≤ c && c ≤ '\uFFFD') || '\uFFFF' < c

/-- Whether a text is at its end, or starts with a blank or a line break. -/
def atGap : List Char → Bool
  | [] => true
  | c :: _ => isGap c || isBreak c

/-- Whether a text starts with a document marker, `---` or `...`, that stands alone. -/
def atMarker (c : Char) : List Char → Bool
  | a :: b :: d :: rest => a == c && b == c && d == c && atGap rest
  | _ => false

namespace Cursor

def ofText (text : List Char) : Cursor := ⟨⟨0, 0, 0⟩, text⟩

def skip (n : Nat) (c : Cursor) : Cursor :=
  ⟨⟨c.mark.index + n, c.mark.line, c.mark.column + n⟩, c.rest.drop n⟩

/-- Splits off the characters that pass a test which no line break passes. -/
def span (p : Char → Bool) (c : Cursor) : List Char × Cursor :=
  let taken := c.rest.takeWhile p
  (taken, c.skip taken.length)

/-- Moves over one line break and gives the break that it stands for; the first three kinds all
stand for a line feed. -/
def lineBreak (c : Cursor) : List Char × Cursor :=
  let next (n : Nat) : Mark := ⟨c.mark.index + n, c.mark.line + 1, 0⟩
  match c.rest with
  | '\r' :: '\n' :: rest => (['\n'], ⟨next 2, rest⟩)
  | b :: rest =>
    if b = '\u2028' ∨ b = '\u2029' then ([b], ⟨next 1, rest⟩) else (['\n'], ⟨next 1, rest⟩)
  | [] => ([], c)

def at? (p : Char → Bool) (c : Cursor) : Bool := c.rest.head?.any p

def isAt (x : Char) (c : Cursor) : Bool := c.rest.head? == some x

/-- Whether a document marker of either kind starts here. -/
def atDocumentMarker (c : Cursor) : Bool :=
  c.mark.column == 0 && (atMarker '-' c.rest || atMarker '.' c.rest)

/-- Moves over blanks, a comment if there is one, and the line break. Nothing else may stand in
the rest of the line. -/
def restOfLine? (c : Cursor) : Option Cursor :=
  let c := (c.span isGap).2
  let c := if c.isAt '#' then (c.span fun x => !isBreak x).2 else c
  if c.rest = [] then some c
  else if c.at? isBreak then some c.lineBreak.2
  else none

end Cursor

end Yaml

end VideoEdit
