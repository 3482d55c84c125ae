import VideoEdit.Number.Radix
import VideoEdit.Yaml.Token
/-!
The texts of scalars. In a flow or plain scalar a run of blanks within a line is kept, a single
line break becomes a blank, and of several line breaks the first is dropped; a block scalar keeps
its lines, or folds them in the same way where neither of two lines starts with a blank.
-/
namespace VideoEdit

namespace Yaml

/-- What stands between two parts of a flow or plain scalar: blanks of the first line, and the line
breaks after them. -/
structure Gap where
  blanks : List Char
  breaks : List (List Char)

namespace Gap

def text (g : Gap) : List Char :=
  match g.breaks with
  | [] => g.blanks
  | first :: more =>
    if first = ['\n'] then (if more = [] then [' '] else more.flatten) else first ++ more.flatten

/-- Moves over the rest of a gap that has a line break. A tab to the left of `margin` is refused. -/
def more? (margin : Nat) : Nat → Cursor → Option (List (List Char) × Cursor)
  | 0, _ => none
  | fuel + 1, c =>
    match c.rest with
    | [] => some ([], c)
    | x :: _ =>
      if x = '\t' ∧ c.mark.column < margin then none
      else if isGap x then more? margin fuel (c.skip 1)
      else if isBreak x then
        let (b, next) := c.lineBreak
        (more? margin fuel next).map fun (bs, last) => (b :: bs, last)
      else some ([], c)

def read? (margin : Nat) (c : Cursor) : Option (Gap × Cursor) :=
  let (blanks, c) := c.span isGap
  if c.at? isBreak then
    (more? margin (c.rest.length + 1) c).map fun (breaks, c) => (⟨blanks, breaks⟩, c)
  else some (⟨blanks, []⟩, c)

end Gap

namespace Plain

/-- A character that ends a plain scalar inside a flow collection. -/
def isFlowIndicator (c : Char) : Bool :=
  c == ',' || c == '[' || c == ']' || c == '{' || c == '}'

/-- Splits off the part of a plain scalar up to the next gap or the end of the scalar: a colon
before a gap ends it, and in a flow collection an indicator does. There a colon may not stand
before an indicator or a question mark. -/
def part? (flow : Bool) : List Char → Option (List Char)
  | [] => some []
  | c :: rest =>
    if isGap c || isBreak c then some []
    else if flow && c == ':' && rest.head?.any (fun x => isFlowIndicator x || x == '?') then none
    else if c == ':' && atGap rest then some []
    else if flow && isFlowIndicator c then some []
    else (part? flow rest).map (c :: ·)

/-- Reads the parts of a plain scalar, joined by the gaps between them. `gap` is the text of the
gap before the next part; the flag says whether the scalar ended behind a line break. -/
def parts? (flow : Bool) (margin : Nat) : Nat → List Char → Bool → Cursor →
    Option (List Char × Bool × Cursor)
  | 0, _, _, _ => none
  | fuel + 1, gap, broken, c =>
    if c.atDocumentMarker || c.isAt '#' then some ([], broken, c)
    else do
      let part ← part? flow c.rest
      if part = [] then return ([], broken, c)
      let c := c.skip part.length
      if !c.at? (fun x => isGap x || isBreak x) then return (gap ++ part, false, c)
      let (next, c) ← Gap.read? margin c
      let broken := next.breaks ≠ []
      if !flow && c.mark.column < margin then return (gap ++ part, broken, c)
      let (text, broken, c) ← parts? flow margin fuel next.text broken c
      return (gap ++ part ++ text, broken, c)

/-- Reads a plain scalar, whose further lines start at the margin or to the right of it. -/
def read? (flow : Bool) (margin : Nat) (c : Cursor) : Option (List Char × Bool × Cursor) :=
  parts? flow margin (c.rest.length + 1) [] false c

end Plain

namespace Quoted

def escape? : Char → Option Char
  | '0' => some '\x00'
  | 'a' => some '\x07'
  | 'b' => some '\x08'
  | 't' | '\t' => some '\t'
  | 'n' => some '\n'
  | 'v' => some '\x0b'
  | 'f' => some '\x0c'
  | 'r' => some '\r'
  | 'e' => some '\x1b'
  | ' ' => some ' '
  | '"' => some '"'
  | '/' => some '/'
  | '\\' => some '\\'
  | 'N' => some '\u0085'
  | '_' => some '\u00A0'
  | 'L' => some '\u2028'
  | 'P' => some '\u2029'
  | _ => none

/-- The number of hexadecimal digits after the letter of a numeric escape. -/
def escapeLength? : Char → Option Nat
  | 'x' => some 2
  | 'u' => some 4
  | 'U' => some 8
  | _ => none

/-- The character that a numeric escape stands for; surrogates are refused. -/
def codePoint? (n : Nat) : Option Char :=
  if n.isValidChar then some (Char.ofNat n) else none

/-- Reads the part of a quoted scalar up to the next gap, the closing quote or an escaped line
break. -/
def part? (quote : Char) : Nat → Cursor → Option (List Char × Cursor)
  | 0, _ => none
  | fuel + 1, c =>
    match c.rest with
    | [] => some ([], c)
    | x :: rest =>
      let keep (text : Char) (taken : Nat) : Option (List Char × Cursor) :=
        (part? quote fuel (c.skip taken)).map fun (part, c) => (text :: part, c)
      if isGap x || isBreak x then some ([], c)
      else if quote = '\'' ∧ x = '\'' ∧ rest.head? = some '\'' then keep '\'' 2
      else if x = quote then some ([], c)
      else if quote = '"' ∧ x = '\\' then
        match rest with
        | [] => none
        | letter :: digits =>
          if isBreak letter then some ([], c)
          else match escapeLength? letter with
            | some n =>
              if (digits.take n).length < n then none
              else match (natInBase? 16 (digits.take n)).bind codePoint? with
                | some y => keep y (2 + n)
                | none => none
            | none =>
              match escape? letter with
              | some y => keep y 2
              | none => none
      else keep x 1

/-- Reads a quoted scalar from behind its opening quote to behind its closing one. Behind an escaped
line break blanks are dropped and further breaks are kept. -/
def parts? (quote : Char) : Nat → Cursor → Option (List Char × Cursor)
  | 0, _ => none
  | fuel + 1, c =>
    if c.atDocumentMarker then none
    else do
      let (part, c) ← part? quote (c.rest.length + 1) c
      if c.isAt quote then return (part, c.skip 1)
      if c.rest = [] then none
      let (gap, c) ← if c.isAt '\\' then
          (Gap.more? 0 (c.rest.length + 1) (c.skip 1).lineBreak.2).map
            fun (bs, c) => (bs.flatten, c)
        else (Gap.read? 0 c).map fun (gap, c) => (gap.text, c)
      let (text, c) ← parts? quote fuel c
      return (part ++ gap ++ text, c)

def read? (quote : Char) (c : Cursor) : Option (List Char × Cursor) :=
  parts? quote (c.rest.length + 1) (c.skip 1)

end Quoted

namespace Block

/-- What becomes of the line breaks at the end of a block scalar. -/
inductive Chomping
  | strip
  | clip
  | keep
  deriving DecidableEq

def chomping? (c : Cursor) : Option (Chomping × Cursor) :=
  if c.isAt '+' then some (.keep, c.skip 1)
  else if c.isAt '-' then some (.strip, c.skip 1)
  else none

/-- Reads an indentation indicator, a digit from one to nine. The outer `none` is a zero. -/
def increment? (c : Cursor) : Option (Nat × Cursor) :=
  match c.rest with
  | d :: _ =>
    if d.isDigit then (if d = '0' then none else some (d.toNat - 48, c.skip 1)) else some (0, c)
  | [] => some (0, c)

/-- Reads the indicators behind the start of a block scalar, in either order. -/
def indicators? (c : Cursor) : Option (Chomping × Nat × Cursor) :=
  match chomping? c with
  | some (chomping, c) => (increment? c).map fun (n, c) => (chomping, n, c)
  | none => do
    let (n, next) ← increment? c
    match (if n = 0 then none else chomping? next) with
    | some (chomping, next) => return (chomping, n, next)
    | none => return (.clip, n, next)

/-- Moves over empty lines and indentation. An indentation of zero is still to be found: then all
spaces are skipped and the deepest column is returned. -/
def breaks? (indent : Nat) : Nat → Nat → Cursor → Option (List (List Char) × Nat × Cursor)
  | 0, _, _ => none
  | fuel + 1, deepest, c =>
    let spaces := (c.rest.takeWhile (· == ' ')).length
    let c := c.skip (if indent = 0 then spaces else min spaces (indent - c.mark.column))
    let deepest := max deepest c.mark.column
    if (indent = 0 || c.mark.column < indent) && c.isAt '\t' then none
    else if c.at? isBreak then
      let (b, next) := c.lineBreak
      (breaks? indent fuel deepest next).map fun (bs, deepest, last) => (b :: bs, deepest, last)
    else some ([], deepest, c)

/-- Reads the lines of a block scalar. `broken` is the break that ends the line before, `empty` the
breaks after it, and `blank` says whether that line starts with a blank. -/
def lines? (isLiteral : Bool) (indent : Nat) :
    Nat → List Char → List (List Char) → Bool → Cursor →
      Option (List Char × List Char × List (List Char) × Cursor)
  | 0, _, _, _, _ => none
  | fuel + 1, broken, empty, blank, c =>
    if c.mark.column ≠ indent ∨ c.rest = [] then some ([], broken, empty, c)
    else do
      let startsBlank := c.at? isGap
      let joint :=
        if !isLiteral && broken = ['\n'] && !blank && !startsBlank then
          (if empty = [] then [' '] else [])
        else broken
      let (line, c) := c.span fun x => !isBreak x
      let (b, c) := c.lineBreak
      let (bs, _, c) ← breaks? indent (c.rest.length + 1) 0 c
      let (text, broken, rest, c) ← lines? isLiteral indent fuel b bs startsBlank c
      return (joint ++ empty.flatten ++ line ++ text, broken, rest, c)

/-- Reads a block scalar, which the cursor stands at. `parent` is the column of the collection
around it, if there is one. -/
def read? (isLiteral : Bool) (parent : Option Nat) (c : Cursor) : Option (List Char × Cursor) := do
  let (chomping, increment, c) ← indicators? (c.skip 1)
  let c ← c.restOfLine?
  let given := if increment = 0 then 0 else parent.getD 0 + increment
  let (empty, deepest, c) ← breaks? given (c.rest.length + 1) 0 c
  let least := match parent with
    | some column => column + 1
    | none => 1
  let indent := if given = 0 then max deepest least else given
  let (text, broken, rest, c) ← lines? isLiteral indent (c.rest.length + 1) [] empty false c
  return (text ++ (if chomping = .strip then [] else broken) ++
    (if chomping = .keep then rest.flatten else []), c)

end Block

end Yaml

end VideoEdit
