import VideoEdit.Edit.Operation
import VideoEdit.Number.Numeral
import VideoEdit.Prompt.Phrase
import VideoEdit.Text.Fields
/-!
What a recognised phrase says: an operation, one bound of a window whose other bound may stand
elsewhere, or the output format. A number written with digits of another script says nothing.
-/
namespace VideoEdit

/-- The content of one match. -/
inductive Finding
  | operation (operation : Operation)
  | start (seconds : Binary64)
  | finish (seconds : Binary64)
  | output (format : OutputFormat)
  deriving DecidableEq

namespace Finding

def isMinute (unit : List Char) : Bool := (lowerAscii unit).head? = some 'm'

/-- The seconds of a clock time, each field counting sixty of the next. -/
def clockSeconds? (text : List Char) : Option Binary64 :=
  (fields ':' text).foldlM (fun total field => (Numeral.read? field).map (total * 60 + ·)) 0

/-- The seconds of a time; the unit counts for a plain number only. -/
def seconds? (text : List Char) (unit : Option (List Char)) : Option Binary64 :=
  if ':' ∈ text then clockSeconds? text
  else (Numeral.read? text).map fun value => if unit.any isMinute then value * 60 else value

/-- The seconds of a bound that stands alone: it needs a unit or a clock time, so that a plain
number such as a speed is not taken for one. -/
def bound? (text : List Char) (unit : Option (List Char)) : Option Binary64 :=
  if unit.isNone && ':' ∉ text then none else seconds? text unit

/-- A window; a unit written once holds for both of its times. -/
def ofTrimRange? (m : Match Part) : Option Finding := do
  let startUnit := m.text? .startUnit
  let finishUnit := m.text? .finishUnit
  let start ← seconds? (← m.text? .start) (startUnit.or finishUnit)
  let finish ← seconds? (← m.text? .finish) (finishUnit.or startUnit)
  return operation (.trim start (some finish))

def ofStart? (m : Match Part) : Option Finding := do
  return start (← bound? (← m.text? .start) (m.text? .startUnit))

def ofFinish? (m : Match Part) : Option Finding := do
  return finish (← bound? (← m.text? .finish) (m.text? .finishUnit))

def isSlowing (verb : List Char) : Bool := "slow".toList.isPrefixOf (lowerAscii verb)

/-- The factor of a change of speed. Slowing by a number above one divides by it. -/
def speedFactor? (m : Match Part) : Option Binary64 :=
  match m.text? .target with
  | some text => do
    let value ← Numeral.read? text
    return if (m.text? .verb).any isSlowing && Binary64.less 1 value then 1 / value else value
  | none =>
    match (m.text? .faster).or (m.text? .multiplier) with
    | some text => Numeral.read? text
    | none =>
      match m.text? .slower with
      | some text => (Numeral.read? text).map (1 / ·)
      | none =>
        if (m.text? .double).isSome then some 2
        else if (m.text? .half).isSome then some (.fraction 1 2)
        else none

def isDarkening (verb : List Char) : Bool :=
  lowerAscii verb = "darken".toList || lowerAscii verb = "dim".toList

/-- The value of a change of brightness: a percentage is a hundredth part, a darkening verb turns
the sign, and the result is brought into [-1, 1]. -/
def brightnessOf (text : List Char) (percent negative : Bool) : Option Binary64 := do
  let number ← Numeral.read? text
  let value := if percent then number / 100 else number
  return ((if negative then -1 else 1) * value).clamp (-1) 1

def ofBrightness? (m : Match Part) : Option Finding := do
  match m.text? .amount with
  | some text =>
    let verb ← m.text? .verb
    return operation (.brightness
      (← brightnessOf text (m.text? .amountPercent).isSome (isDarkening verb)))
  | none =>
    return operation (.brightness
      (← brightnessOf (← m.text? .level) (m.text? .levelPercent).isSome false))

def ofCrop (m : Match Part) : Finding :=
  operation (.crop (if (m.text? .square).isSome then .square else .portraitFill))

end Finding

/-- What a match of the rule says, if its numbers can be read. -/
def Rule.finding? : Rule → Match Part → Option Finding
  | trimRange, m => Finding.ofTrimRange? m
  | trimFirst, m => Finding.ofStart? m
  | trimStartAt, m => Finding.ofStart? m
  | trimEnd, m => Finding.ofFinish? m
  | grayscale, _ => some (.operation .grayscale)
  | speed, m => (Finding.speedFactor? m).map fun factor => .operation (.speed factor)
  | mute, _ => some (.operation .mute)
  | brightness, m => Finding.ofBrightness? m
  | crop, m => some (Finding.ofCrop m)
  | gif, _ => some (.output .gif)

end VideoEdit
