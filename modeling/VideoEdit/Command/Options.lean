/-!
The syntax of options. An option is given by its long name or by its letter; a value follows as the
next word, or in the same word behind an equals sign or, after a letter, at once.
-/
namespace VideoEdit

namespace CommandLine

/-- What an option takes: nothing, a value that passes a test, or the whole command line, which it
ends with a note of the version. -/
inductive Takes
  | nothing
  | value (accepts : String → Bool)
  | version

/-- An option: its long name, its letter if it has one, and what it takes. -/
structure OptionKind where
  name : String
  letter : Option Char
  takes : Takes

/-- What the first word of a command line is: a word of its own, a complete option, an option whose
value is the next word, a request for the version, or no option that there is. -/
inductive Reading
  | word
  | given (kind : OptionKind) (value : String)
  | awaiting (kind : OptionKind)
  | version
  | unknown

/-- What an option is, with the value that stands in its word if there is one. -/
def OptionKind.reading (kind : OptionKind) (attached : Option String) : Reading :=
  match kind.takes, attached with
  | .nothing, none => .given kind ""
  | .value _, some value => .given kind value
  | .value _, none => .awaiting kind
  | .version, none => .version
  | _, some _ => .unknown

def readLong (kinds : List OptionKind) (body : List Char) : Reading :=
  let name := String.ofList (body.takeWhile (· ≠ '='))
  let attached := match body.dropWhile (· ≠ '=') with
    | [] => none
    | _ :: value => some (String.ofList value)
  match kinds.find? (·.name = name) with
  | some kind => kind.reading attached
  | none => .unknown

/-- Reads an option by its letter. What follows the letter is its value; an option without a value
would be followed by more letters, and the only one there is ends the command line. -/
def readLetter (kinds : List OptionKind) (letter : Char) (rest : List Char) : Reading :=
  match kinds.find? (·.letter = some letter) with
  | none => .unknown
  | some kind =>
    match kind.takes, rest with
    | .version, _ => .version
    | _, [] => kind.reading none
    | _, '=' :: value => kind.reading (some (String.ofList value))
    | _, value => kind.reading (some (String.ofList value))

/-- Reads a word: one that starts with a hyphen and goes on is an option. -/
def readWord (kinds : List OptionKind) (word : String) : Reading :=
  match word.toList with
  | '-' :: '-' :: body => readLong kinds body
  | '-' :: letter :: rest => readLetter kinds letter rest
  | _ => .word

def isValue (word : String) : Bool :=
  match word.toList with
  | '-' :: _ :: _ => false
  | _ => true

/-- The options and words given so far, the latest first. -/
structure Given where
  options : List (String × String)
  words : List String

namespace Given

def none : Given := ⟨[], []⟩

/-- Adds an option. It may be given once only, and its value must be accepted. -/
def add? (g : Given) (kind : OptionKind) (value : String) : Option Given :=
  let accepted := match kind.takes with
    | .value accepts => accepts value
    | _ => true
  if accepted && !g.options.any (·.1 = kind.name) then
    some { g with options := (kind.name, value) :: g.options }
  else Option.none

def addWord (g : Given) (word : String) : Given := { g with words := g.words ++ [word] }

def value? (g : Given) (name : String) : Option String := g.options.lookup name

def has (g : Given) (name : String) : Bool := (g.value? name).isSome

end Given

/-- Reads options and words to the end; behind a double hyphen there are only words. -/
def readAll? (kinds : List OptionKind) (g : Given) : List String → Option Given
  | [] => some g
  | word :: rest =>
    if word = "--" then some { g with words := g.words ++ rest }
    else match readWord kinds word with
      | .word => readAll? kinds (g.addWord word) rest
      | .given kind value => (g.add? kind value).bind fun g => readAll? kinds g rest
      | .awaiting kind =>
        match rest with
        | value :: rest =>
          if isValue value then (g.add? kind value).bind fun g => readAll? kinds g rest else none
        | [] => none
      | .version | .unknown => none

end CommandLine

end VideoEdit
