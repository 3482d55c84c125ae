import VideoEdit.Number.Numeral
import VideoEdit.Number.Radix
import VideoEdit.Text.Alphanumeric
/-!
Values in directives. A value is a number or a regular expression; as it says something about spans
only, and there are none, no value decides about an event, but one that is neither spoils its
directive.
-/
namespace VideoEdit

namespace Log

/-- Why a value cannot be matched: it is no regular expression, or one that needs to know the words
of all scripts. -/
inductive PatternFault
  | malformed
  | wordBoundary
  deriving DecidableEq

def PatternFault.message : PatternFault → String
  | malformed => "error building NFA"
  | wordBoundary =>
    "unsupported regex feature for DFAs: cannot build DFAs for regexes with Unicode word " ++
      "boundaries; switch to ASCII word boundaries, or heuristically enable Unicode word " ++
      "boundaries or use a different regex engine"

namespace ValuePattern

/-- What an escape stands for: a character, a set of characters, or a place in the text, which may
be a word boundary. -/
inductive Escape
  | literal (c : Char)
  | charSet
  | place (wordBoundary : Bool)

/-- The control characters that escapes name. -/
def controls : List (Char × Char) :=
  [('a', '\x07'), ('f', '\x0c'), ('t', '\t'), ('n', '\n'), ('r', '\r'), ('v', '\x0b')]

/-- The number of hexadecimal digits in the escape of a code point. -/
def codeLength? : Char → Option Nat
  | 'x' => some 2
  | 'u' => some 4
  | 'U' => some 8
  | _ => none

def codePoint? (length : Nat) (text : List Char) : Option Char :=
  let digits := text.take length
  if digits.length < length then none
  else (natInBase? 16 digits).bind fun n => if n.isValidChar then some (Char.ofNat n) else none

/-- Reads an escape behind its backslash. -/
def escape? : List Char → Option (Escape × List Char)
  | [] => none
  | c :: rest =>
    match codeLength? c with
    | some n => (codePoint? n rest).map fun x => (.literal x, rest.drop n)
    | none =>
      match controls.lookup c with
      | some x => some (.literal x, rest)
      | none =>
        if ['d', 's', 'w', 'D', 'S', 'W'].contains c then some (.charSet, rest)
        else if c = 'p' ∨ c = 'P' then
          match rest with
          | category :: rest =>
            if ['c', 'l', 'm', 'n', 'p', 's', 'z'].contains category.toLower then
              some (.charSet, rest)
            else none
          | [] => none
        else if c = 'A' ∨ c = 'z' then some (.place false, rest)
        else if ['b', 'B', '<', '>'].contains c then some (.place true, rest)
        else if c.isAlphanum || 0x80 ≤ c.toNat then none
        else some (.literal c, rest)

def setNames : List String :=
  ["alnum", "alpha", "ascii", "blank", "cntrl", "digit", "graph", "lower", "print", "punct",
    "space", "upper", "word", "xdigit"]

/-- Reads a named set behind its opening bracket. -/
def namedSet? : List Char → Option (List Char)
  | ':' :: text =>
    let text := match text with
      | '^' :: rest => rest
      | _ => text
    let name := text.takeWhile (· ≠ ':')
    match text.drop name.length with
    | ':' :: ']' :: rest => if setNames.contains (String.ofList name) then some rest else none
    | _ => none
  | _ => none

/-- Moves over the start of a set behind its opening bracket: a sign that negates the set, and
hyphens or else one closing bracket that belong to it. -/
def openSet (text : List Char) : List Char :=
  let text := match text with
    | '^' :: rest => rest
    | _ => text
  match text with
  | '-' :: rest => rest.dropWhile (· = '-')
  | ']' :: rest => rest
  | _ => text

def member? : List Char → Option (Escape × List Char)
  | '\\' :: rest => escape? rest
  | c :: rest => some (.literal c, rest)
  | [] => none

def range? (text : List Char) : Option (List Char) := do
  let (first, rest) ← member? text
  let inRange := match rest with
    | '-' :: next :: _ => next ≠ ']' && next ≠ '-'
    | _ => false
  if inRange then
    let (last, rest) ← member? (rest.drop 1)
    match first, last with
    | .literal a, .literal b => if a ≤ b then some rest else none
    | _, _ => none
  else
    match first with
    | .place _ => none
    | _ => some rest

/-- Reads the members of a set and its closing bracket. `depth` is the number of sets around it. -/
def set? : Nat → Nat → List Char → Option (List Char)
  | 0, _, _ => none
  | fuel + 1, depth, text =>
    match text with
    | [] => none
    | '[' :: rest =>
      match namedSet? rest with
      | some rest => set? fuel depth rest
      | none => set? fuel (depth + 1) (openSet rest)
    | ']' :: rest => if depth = 0 then some rest else set? fuel (depth - 1) rest
    | '&' :: '&' :: rest | '-' :: '-' :: rest | '~' :: '~' :: rest => set? fuel depth rest
    | _ => (range? text).bind (set? fuel depth)

/-- Reads flags to the colon or parenthesis behind them. No flag stands twice, and a minus sign
stands in front of one. -/
def flags? : List Char → List Char → Option (List Char × List Char)
  | _, [] => none
  | seen, c :: rest =>
    if c = ':' ∨ c = ')' then (if seen.head? = some '-' then none else some (seen, c :: rest))
    else if c ∉ seen ∧ ['-', 'i', 'm', 's', 'U', 'u', 'R', 'x'].contains c then
      flags? (c :: seen) rest
    else none

def isName : List Char → Bool
  | [] => false
  | c :: rest =>
    (c == '_' || (isAlphanumeric c && !c.isDigit)) &&
      rest.all fun c => c == '_' || c == '.' || c == '[' || c == ']' || isAlphanumeric c

/-- What an opening parenthesis starts: a group, which may have a name, or flags for what
follows. -/
inductive Opening
  | group (name : Option (List Char))
  | flags

def groupName? (text : List Char) : Option (Opening × List Char) :=
  let name := text.takeWhile (· ≠ '>')
  match text.drop name.length with
  | _ :: rest => if isName name then some (.group (some name), rest) else none
  | [] => none

/-- Reads what stands behind an opening parenthesis before the content of the group. -/
def opening? : List Char → Option (Opening × List Char)
  | '?' :: 'P' :: '<' :: rest => groupName? rest
  | '?' :: '<' :: rest => groupName? rest
  | '?' :: rest =>
    (flags? [] rest).bind fun (flags, rest) =>
      if rest.head? = some ':' then some (.group none, rest.drop 1)
      else if flags = [] then none
      else some (.flags, rest.drop 1)
  | rest => some (.group none, rest)

/-- Whether a regular expression has a word boundary; no text that is none has an answer. `names`
are those of the groups so far, `depth` is the number of open groups, and `repeatable` says whether
something to repeat stands in front. No braces are closed, so none can count repetitions. -/
def hasBoundary? : Nat → List (List Char) → Nat → Bool → List Char → Option Bool
  | 0, _, _, _, _ => none
  | fuel + 1, names, depth, repeatable, text =>
    match text with
    | [] => if depth = 0 then some false else none
    | '(' :: rest =>
      (opening? rest).bind fun (opening, rest) =>
        match opening with
        | .flags => hasBoundary? fuel names depth false rest
        | .group none => hasBoundary? fuel names (depth + 1) false rest
        | .group (some name) =>
          if name ∈ names then none else hasBoundary? fuel (name :: names) (depth + 1) false rest
    | ')' :: rest => if depth = 0 then none else hasBoundary? fuel names (depth - 1) true rest
    | '|' :: rest => hasBoundary? fuel names depth false rest
    | '[' :: rest =>
      (set? rest.length 0 (openSet rest)).bind (hasBoundary? fuel names depth true)
    | '\x7b' :: _ => none
    | '\\' :: rest =>
      (escape? rest).bind fun (escape, rest) =>
        (hasBoundary? fuel names depth true rest).map fun found =>
          match escape with
          | .place boundary => boundary || found
          | _ => found
    | c :: rest =>
      if c = '*' ∨ c = '+' ∨ c = '?' then
        if repeatable then
          hasBoundary? fuel names depth true (if rest.head? = some '?' then rest.drop 1 else rest)
        else none
      else hasBoundary? fuel names depth true rest

def fault? (text : List Char) : Option PatternFault :=
  if (Numeral.read? text).isSome then none
  else match hasBoundary? (text.length + 1) [] 0 false text with
    | none => some .malformed
    | some true => some .wordBoundary
    | some false => none

end ValuePattern

end Log

end VideoEdit
