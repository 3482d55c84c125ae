import VideoEdit.Prompt.Finding
/-!
The mentions of a prompt: every operation found, in the order of the text. Bounds of a window that
stand alone are joined into one mention, unless they share text with an operation: in "from 2s to
8s" the bounds belong to the range, in "crop to 9:16" the time is an aspect ratio.
-/
namespace VideoEdit

/-- What a mention was read from: one phrase, or window bounds that stood alone. -/
inductive Origin
  | phrase (rule : Rule)
  | bounds
  deriving DecidableEq

/-- An operation that a prompt names, and the byte at which the phrase for it starts. -/
structure Mention where
  offset : Nat
  origin : Origin
  operation : Operation
  deriving DecidableEq

/-- The mentions of a prompt in the order of the text, and the output format it asks for. Nothing
is validated or counted out yet. -/
structure Extraction where
  mentions : List Mention
  output : OutputFormat
  deriving DecidableEq

/-- A finding and the text it was read from. -/
structure Found where
  start : Nat
  stop : Nat
  rule : Rule
  finding : Finding
  deriving DecidableEq

namespace Found

def overlaps (a b : Found) : Bool := a.start < b.stop && b.start < a.stop

/-- The operation of a finding, as a mention. -/
def mention? (f : Found) : Option Mention :=
  match f.finding with
  | .operation operation => some ⟨f.start, .phrase f.rule, operation⟩
  | _ => none

def startBound? (f : Found) : Option Binary64 :=
  match f.finding with
  | .start seconds => some seconds
  | _ => none

def finishBound? (f : Found) : Option Binary64 :=
  match f.finding with
  | .finish seconds => some seconds
  | _ => none

def isBound (f : Found) : Bool := f.startBound?.isSome || f.finishBound?.isSome

end Found

namespace Prompt

/-- What one rule finds in a text. -/
def findingsOf (text : List Char) (rule : Rule) : List Found :=
  (rule.shape.search text).filterMap fun m =>
    (rule.finding? m).map fun finding => ⟨m.start, m.stop, rule, finding⟩

/-- What all rules find, by place; at one place the earlier rule comes first. -/
def findings (text : List Char) : List Found :=
  (Rule.all.flatMap (findingsOf text)).mergeSort fun a b => a.start ≤ b.start

/-- The bounds that share no text with an operation. -/
def looseBounds (found : List Found) : List Found :=
  found.filter fun f =>
    f.isBound && !found.any fun claim => claim.mention?.isSome && f.overlaps claim

/-- The mention that loose bounds make together: at the first of them, from the first start to the
first end. -/
def boundsMention? (bounds : List Found) : Option Mention :=
  bounds.head?.map fun first =>
    ⟨first.start, .bounds,
      .trim ((bounds.findSome? Found.startBound?).getD 0) (bounds.findSome? Found.finishBound?)⟩

/-- Puts a mention in front of the first one that starts behind it. -/
def insertMention (mention : Mention) (mentions : List Mention) : List Mention :=
  mentions.takeWhile (fun m => m.offset ≤ mention.offset) ++
    mention :: mentions.dropWhile (fun m => m.offset ≤ mention.offset)

/-- The extraction that a list of findings makes. -/
def assembleFindings (found : List Found) : Extraction :=
  let mentions := found.filterMap Found.mention?
  { mentions := match boundsMention? (looseBounds found) with
      | none => mentions
      | some mention => insertMention mention mentions
    output := if found.any (fun f => f.finding = .output .gif) then .gif else .mp4 }

/-- Reads a prompt. Text that no rule recognises adds nothing. -/
def parse (prompt : String) : Extraction := assembleFindings (findings prompt.toList)

end Prompt

def Origin.name : Origin → String
  | bounds => "trim_bounds"
  | phrase .trimRange => "trim_range"
  | phrase .trimFirst => "trim_first"
  | phrase .trimStartAt => "trim_start_at"
  | phrase .trimEnd => "trim_end"
  | phrase .grayscale => "grayscale"
  | phrase .speed => "speed"
  | phrase .mute => "mute"
  | phrase .brightness => "brightness"
  | phrase .crop => "crop"
  | phrase .gif => "gif"

end VideoEdit
