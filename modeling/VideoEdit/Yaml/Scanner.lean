import VideoEdit.Yaml.Property
/-!
From text to tokens. A key without a question mark is recognised only at its colon; until then the
place is remembered, and the tokens that announce it are put in there. Until then the tokens from
there on are not settled, and none of them is given if the text turns out to be no sequence of
tokens.
-/
namespace VideoEdit

namespace Yaml

/-- A place where a key may have started: whether it must turn out to be one, how many tokens stand
before it, and where it is. -/
structure KeyStart where
  required : Bool
  position : Nat
  mark : Mark

/-- The state of the scanner: the tokens so far, the latest first; the columns of the block
collections that are open, the innermost first; and, for the block level and each open flow
collection, the key that may have started there. -/
structure Scanner where
  cursor : Cursor
  tokens : List Token
  columns : List Nat
  flow : List (Option KeyStart)
  blockKey : Option KeyStart
  keyAllowed : Bool
  done : Bool

namespace Scanner

def ofText (text : List Char) : Scanner := ⟨Cursor.ofText text, [], [], [], none, true, false⟩

def inFlow (s : Scanner) : Bool := !s.flow.isEmpty

def keyStart (s : Scanner) : Option KeyStart :=
  match s.flow with
  | key :: _ => key
  | [] => s.blockKey

def setKeyStart (s : Scanner) (key : Option KeyStart) : Scanner :=
  match s.flow with
  | _ :: rest => { s with flow := key :: rest }
  | [] => { s with blockKey := key }

/-- Gives up the key that may have started; one that had to be a key is missing its colon. -/
def dropKey? (s : Scanner) : Option Scanner :=
  if s.keyStart.any (·.required) then none else some (s.setKeyStart none)

/-- Remembers that a key may start here. It must be one if it stands in the column of the innermost
block collection. -/
def markKey? (s : Scanner) : Option Scanner :=
  if s.keyAllowed then
    s.dropKey?.map fun s =>
      s.setKeyStart (some ⟨!s.inFlow && s.columns.head? == some s.cursor.mark.column,
        s.tokens.length, s.cursor.mark⟩)
  else some s

/-- Adds a token of some kind that stretches from the cursor to another one. -/
def emit (s : Scanner) (kind : TokenKind) (next : Cursor) : Scanner :=
  { s with tokens := ⟨kind, s.cursor.mark, next.mark⟩ :: s.tokens, cursor := next }

/-- Puts a token without extent in front of all but the first `position` tokens. -/
def insert (s : Scanner) (kind : TokenKind) (position : Nat) (mark : Mark) : Scanner :=
  let later := s.tokens.length - position
  { s with tokens := s.tokens.take later ++ ⟨kind, mark, mark⟩ :: s.tokens.drop later }

/-- Closes the block collections to the right of a column; with none given, all of them. -/
def closeBlocks (s : Scanner) (column : Option Nat) : Scanner :=
  if s.inFlow then s
  else
    let closed := s.columns.takeWhile fun opened => column.all (· < opened)
    let ends := closed.map fun _ => (⟨.blockEnd, s.cursor.mark, s.cursor.mark⟩ : Token)
    { s with tokens := ends ++ s.tokens, columns := s.columns.drop closed.length }

/-- Opens a block collection if the column lies to the right of the innermost one. -/
def openBlock (s : Scanner) (kind : TokenKind) (position : Nat) (mark : Mark) : Scanner :=
  if s.inFlow || s.columns.head?.any (mark.column ≤ ·) then s
  else { s.insert kind position mark with columns := mark.column :: s.columns }

def openBlockHere (s : Scanner) (kind : TokenKind) : Scanner :=
  s.openBlock kind s.tokens.length s.cursor.mark

/-- Moves over blanks, comments and line breaks, and over a byte order mark at the start of a line.
In a block collection tabs may not stand where a key could start, and behind a line break one
can. -/
def skipBlanks : Nat → Scanner → Scanner
  | 0, s => s
  | fuel + 1, s =>
    let c := s.cursor
    let c := if c.mark.column = 0 && c.isAt '\uFEFF' then c.skip 1 else c
    let c := (c.span fun x => x == ' ' || (x == '\t' && (s.inFlow || !s.keyAllowed))).2
    let c := if c.isAt '#' then (c.span fun x => !isBreak x).2 else c
    if c.at? isBreak then
      skipBlanks fuel { s with cursor := c.lineBreak.2, keyAllowed := s.keyAllowed || !s.inFlow }
    else { s with cursor := c }

/-- The end of the text, which counts as the start of a line. -/
def streamEnd? (s : Scanner) : Option Scanner := do
  let m := s.cursor.mark
  let m := if m.column = 0 then m else ⟨m.index, m.line + 1, 0⟩
  let s ← ({ s with cursor := ⟨m, []⟩ }.closeBlocks none).dropKey?
  return { s.emit .streamEnd s.cursor with done := true }

def directive? (s : Scanner) : Option Scanner := do
  let s ← (s.closeBlocks none).dropKey?
  let (kind, c) ← Directive.read? s.cursor
  return { s.emit kind c with keyAllowed := false }

def documentMarker? (s : Scanner) (kind : TokenKind) : Option Scanner := do
  let s ← (s.closeBlocks none).dropKey?
  return { s.emit kind (s.cursor.skip 3) with keyAllowed := false }

/-- The start of a flow collection, which may itself be a key. -/
def flowStart? (s : Scanner) (kind : TokenKind) : Option Scanner := do
  let s ← s.markKey?
  return { s.emit kind (s.cursor.skip 1) with flow := none :: s.flow, keyAllowed := true }

def flowEnd? (s : Scanner) (kind : TokenKind) : Option Scanner := do
  let s ← s.dropKey?
  return { s.emit kind (s.cursor.skip 1) with flow := s.flow.drop 1, keyAllowed := false }

def flowEntry? (s : Scanner) : Option Scanner := do
  let s ← s.dropKey?
  return { s.emit .flowEntry (s.cursor.skip 1) with keyAllowed := true }

def blockEntry? (s : Scanner) : Option Scanner := do
  if !s.inFlow && !s.keyAllowed then none
  let s ← (s.openBlockHere .blockSequenceStart).dropKey?
  return { s.emit .blockEntry (s.cursor.skip 1) with keyAllowed := true }

def key? (s : Scanner) : Option Scanner := do
  if !s.inFlow && !s.keyAllowed then none
  let s ← (s.openBlockHere .blockMappingStart).dropKey?
  return { s.emit .key (s.cursor.skip 1) with keyAllowed := !s.inFlow }

/-- Whether a key that may have started can still end here: on its line, within 1024 characters. -/
def KeyStart.reaches (key : KeyStart) (mark : Mark) : Bool :=
  mark.line ≤ key.mark.line && mark.index ≤ key.mark.index + 1024

/-- A colon: it ends the key that has started on this level, or one marked by a question mark. -/
def value? (s : Scanner) : Option Scanner :=
  let plain (s : Scanner) : Option Scanner := do
    if !s.inFlow && !s.keyAllowed then none
    let s := s.openBlockHere .blockMappingStart
    return { s.emit .value (s.cursor.skip 1) with keyAllowed := !s.inFlow }
  match s.keyStart with
  | none => plain s
  | some key =>
    if KeyStart.reaches key s.cursor.mark then
      let s := s.insert .key key.position key.mark
      let s := s.openBlock .blockMappingStart key.position key.mark
      let s := s.setKeyStart none
      some { s.emit .value (s.cursor.skip 1) with keyAllowed := false }
    else if key.required then none
    else plain (s.setKeyStart none)

/-- A token that can be all or part of a key. -/
def content? (s : Scanner) (read : Scanner → Option (TokenKind × Cursor)) : Option Scanner := do
  let s ← s.markKey?
  let (kind, c) ← read s
  return { s.emit kind c with keyAllowed := false }

def blockScalar? (s : Scanner) (style : ScalarStyle) : Option Scanner := do
  let s ← s.dropKey?
  let (text, c) ← Block.read? (style = .literal) s.columns.head? s.cursor
  return { s.emit (.scalar style text) c with keyAllowed := true }

/-- A plain scalar; one that ends behind a line break lets a key follow. -/
def plainScalar? (s : Scanner) : Option Scanner := do
  let s ← s.markKey?
  let margin := match s.columns with
    | column :: _ => column + 1
    | [] => 0
  let (text, broken, c) ← Plain.read? s.inFlow margin s.cursor
  return { s.emit (.scalar .plain text) c with keyAllowed := broken }

def quotedScalar? (s : Scanner) (style : ScalarStyle) (quote : Char) : Option Scanner :=
  s.content? fun s => (Quoted.read? quote s.cursor).map fun (text, c) => (.scalar style text, c)

/-- The characters that start something else than a plain scalar wherever they stand. -/
def indicators : List Char :=
  [',', '[', ']', '\x7b', '\x7d', '#', '&', '*', '!', '|', '>', '\'', '"', '%', '@', '\x60']

/-- Whether a plain scalar can start with a character before the given text. -/
def startsPlain (flow : Bool) (c : Char) (rest : List Char) : Bool :=
  if c == '-' then !rest.head?.any isGap
  else if c == '?' || c == ':' then !flow && !atGap rest
  else !isGap c && !isBreak c && !indicators.contains c

/-- The token that starts with a character before the given text. -/
def token? (s : Scanner) (c : Char) (rest : List Char) : Option Scanner :=
  if s.cursor.mark.column = 0 ∧ c = '%' then s.directive?
  else if s.cursor.mark.column = 0 ∧ atMarker '-' (c :: rest) then s.documentMarker? .documentStart
  else if s.cursor.mark.column = 0 ∧ atMarker '.' (c :: rest) then s.documentMarker? .documentEnd
  else if c = '[' then s.flowStart? .flowSequenceStart
  else if c = '\x7b' then s.flowStart? .flowMappingStart
  else if c = ']' then s.flowEnd? .flowSequenceEnd
  else if c = '\x7d' then s.flowEnd? .flowMappingEnd
  else if c = ',' then s.flowEntry?
  else if c = '-' ∧ atGap rest then s.blockEntry?
  else if c = '?' ∧ (s.inFlow || atGap rest) then s.key?
  else if c = ':' ∧ (s.inFlow || atGap rest) then s.value?
  else if c = '*' then
    s.content? fun s => (anchorName? s.cursor).map fun (n, c) => (.reference n, c)
  else if c = '&' then s.content? fun s => (anchorName? s.cursor).map fun (n, c) => (.anchor n, c)
  else if c = '!' then
    s.content? fun s => (Tag.read? s.inFlow s.cursor).map fun (h, t, c) => (.tag h t, c)
  else if c = '|' ∧ !s.inFlow then s.blockScalar? .literal
  else if c = '>' ∧ !s.inFlow then s.blockScalar? .folded
  else if c = '\'' then s.quotedScalar? .singleQuoted '\''
  else if c = '"' then s.quotedScalar? .doubleQuoted '"'
  else if startsPlain s.inFlow c rest then s.plainScalar?
  else none

/-- Scans the next token, and the ends of the block collections before it. -/
def next? (s : Scanner) : Option Scanner :=
  let s := skipBlanks (s.cursor.rest.length + 1) s
  let s := s.closeBlocks (some s.cursor.mark.column)
  match s.cursor.rest with
  | [] => s.streamEnd?
  | c :: rest => s.token? c rest

/-- The tokens that no later text changes: those in front of every place where a key may have
started. -/
def settled (s : Scanner) : List Token :=
  let keys := (s.blockKey :: s.flow).filterMap id
  let pending := keys.filter fun key => key.required || KeyStart.reaches key s.cursor.mark
  pending.foldl (fun tokens key => tokens.take key.position) s.tokens.reverse

/-- The settled tokens of a text that is no token from the cursor on. -/
def stuck (s : Scanner) : List Token :=
  s.settled ++ [⟨.unreadable, s.cursor.mark, s.cursor.mark⟩]

/-- Scans to the end of the text, or to where it is no token. -/
def run : Nat → Scanner → List Token
  | 0, s => s.stuck
  | fuel + 1, s =>
    match s.next? with
    | none => s.stuck
    | some s => if s.done then s.tokens.reverse else run fuel s

end Scanner

/-- The tokens of a text. The last one marks its end, or the place from where on it is unreadable:
with a character that may stand in no text, that is the start. -/
def tokens (text : List Char) : List Token :=
  let s := Scanner.ofText text
  if text.all isAllowed then Scanner.run (text.length + 2) s else s.stuck

end Yaml

end VideoEdit
