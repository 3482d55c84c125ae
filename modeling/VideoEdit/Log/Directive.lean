import VideoEdit.Log.Event
import VideoEdit.Log.ValuePattern
import VideoEdit.Text.Blank
import VideoEdit.Text.Fields
import VideoEdit.Text.LetterCase
/-!
The directives of a filter. A directive is a level, or the beginning of targets with a span and a
field in brackets behind it, either of which may be missing, and a level behind an equals sign.
-/
namespace VideoEdit

namespace Log

/-- A directive: how far down the levels events are written, the beginning of their targets, and a
field that they have. A directive on spans concerns no event. -/
structure Directive where
  depth : Nat
  target : Option String
  field : Option String
  onSpans : Bool
  deriving DecidableEq

inductive DirectiveError
  | malformed
  | badLevel
  | badValue (fault : PatternFault)
  deriving DecidableEq

def DirectiveError.message : DirectiveError → String
  | malformed => "invalid filter directive"
  | badLevel =>
    "error parsing level filter: expected one of \"off\", \"error\", \"warn\", \"info\", " ++
      "\"debug\", \"trace\", or a number 0-5"
  | badValue fault => "invalid field filter: " ++ fault.message

/-- The number that a text of digits denotes, behind a plus sign or not. -/
def natOfText? (text : List Char) : Option Nat :=
  let digits := match text with
    | '+' :: rest => rest
    | _ => text
  if digits ≠ [] ∧ digits.all Char.isDigit then some (Nat.ofDigitChars 10 digits 0) else none

/-- How far down the levels a word reaches: a level's name in any letter case, its number, or
nothing at all. -/
def depth? (text : List Char) : Option Nat :=
  match natOfText? text with
  | some n => if n ≤ 5 then some n else none
  | none =>
    if lowerAscii text = "off".toList then some 0
    else if text = [] then some Level.error.rank
    else
      (Level.all.find? fun level => lowerAscii level.name.toList = lowerAscii text).map Level.rank

namespace Directive

/-- Whether a directive can start with a character: a letter or number of any script, or one of
three signs. A bracket starts one as well. -/
def startsWell (c : Char) : Bool := c == '-' || c == ':' || c == '_' || isAlphanumeric c

/-- Reads the level behind an equals sign; none at all means all levels. -/
def readDepth (level : List Char) : Except DirectiveError Nat :=
  if level = [] then .ok Level.trace.rank
  else match depth? level with
    | some depth => .ok depth
    | none => .error .badLevel

/-- Reads a directive that is a single word: a level, or a target for all levels. -/
def ofWord (word : List Char) : Directive :=
  match depth? word with
  | some depth => ⟨depth, none, none, false⟩
  | none => ⟨Level.trace.rank, some (String.ofList word), none, false⟩

/-- Where the run of characters that starts at a place and has none of the given ones ends. -/
def runEnd (text : List Char) (start : Nat) (stops : List Char) : Nat :=
  start + ((text.drop start).takeWhile fun c => !stops.contains c).length

/-- Reads the end of a directive behind its bracket: nothing, or a level. -/
def readEnd (text trimmed : List Char) (place : Nat) : Except DirectiveError Nat :=
  match trimmed.drop place with
  | [] => .ok Level.trace.rank
  | '=' :: _ => readDepth (text.drop (place + 1))
  | _ => .error .malformed

/-- Reads a field, with a value behind an equals sign or none: its name, and whether it has a
value. -/
def readField (text : List Char) : Except DirectiveError (String × Bool) :=
  if text = [] then .error .malformed
  else
    match VideoEdit.fields '=' text with
    | name :: value :: _ =>
      match ValuePattern.fault? value with
      | some fault => .error (.badValue fault)
      | none => .ok (String.ofList name, true)
    | _ => .ok (String.ofList text, false)

/-- Reads what stands in brackets, from behind the opening one, and the end of the directive. -/
def readBracket (text trimmed : List Char) (target : Option String) (start : Nat) :
    Except DirectiveError Directive := do
  let stop := runEnd trimmed start [']', '\x7b']
  match trimmed.drop stop with
  | [] => .error .malformed
  | ']' :: _ => return ⟨← readEnd text trimmed (stop + 1), target, none, true⟩
  | _ =>
    let fieldStart := stop + 1
    let fieldStop := runEnd trimmed fieldStart ['\x7d']
    if trimmed.drop fieldStop = [] then .error .malformed
    let (name, hasValue) ← readField ((text.drop fieldStart).take (fieldStop - fieldStart))
    match trimmed.drop (fieldStop + 1) with
    | ']' :: _ =>
      return ⟨← readEnd text trimmed (fieldStop + 2), target, some name, hasValue || start < stop⟩
    | _ => .error .malformed

/-- Reads a directive. Its parts are told apart behind the blanks in front of it, but cut from the
text with them, so that blanks in front shift all parts. -/
def read (text : List Char) : Except DirectiveError Directive :=
  let trimmed := trimBlanks text
  match trimmed with
  | [] => .error .malformed
  | '[' :: _ => readBracket text trimmed none 1
  | first :: _ =>
    if !startsWell first then .error .malformed
    else
      let stop := runEnd trimmed 0 ['=', '[']
      let target := String.ofList (text.take stop)
      match trimmed.drop stop with
      | [] => .ok (ofWord text)
      | '=' :: _ =>
        (readDepth (text.drop (stop + 1))).map fun depth => ⟨depth, some target, none, false⟩
      | _ => readBracket text trimmed (some target) (stop + 1)

/-- Whether a directive concerns an event. Every event has a message as one of its fields. -/
def concerns (d : Directive) (e : Event) : Bool :=
  !d.onSpans && d.target.all (fun target => target.toList.isPrefixOf e.target.toList) &&
    d.field.all fun field => field == "message" || (e.fields.lookup field).isSome

/-- How special the target of a directive is: one with a target is more so than one without. -/
def weight (d : Directive) : Nat :=
  match d.target with
  | none => 0
  | some target => target.utf8ByteSize + 1

/-- Whether a field comes before another in the order of special ones: none, then by name. -/
def fieldBefore : Option String → Option String → Bool
  | none, some _ => true
  | some x, some y => x < y
  | _, none => false

/-- Whether a directive is more special than another one: by its target, then by its field. -/
def outranks (a b : Directive) : Bool :=
  b.weight < a.weight || (a.weight == b.weight && fieldBefore b.field a.field)

end Directive

end Log

end VideoEdit
