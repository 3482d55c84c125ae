import VideoEdit.Number.Binary64
import VideoEdit.Text.Blank
import VideoEdit.Text.LetterCase
/-!
Edit operations: the six effects that a plan can hold, the kinds by which they are ordered and
counted, and the values that make one valid.
-/
namespace VideoEdit

/-- How the frame is cropped. -/
inductive CropMode
  | square
  | portraitFill
  deriving DecidableEq

/-- The container written in the end. -/
inductive OutputFormat
  | mp4
  | gif
  deriving DecidableEq

def OutputFormat.extension : OutputFormat → String
  | mp4 => "mp4"
  | gif => "gif"

/-- The format an extension names, whatever its letter case and the white space around it. -/
def OutputFormat.ofExtension? (extension : String) : Option OutputFormat :=
  let text := lowerAscii (trimBlanks extension.toList)
  if text = "mp4".toList then some mp4 else if text = "gif".toList then some gif else none

/-- One effect. Times are seconds; an absent end is the end of the video. -/
inductive Operation
  | trim (start : Binary64) (finish : Option Binary64)
  | grayscale
  | speed (factor : Binary64)
  | mute
  | brightness (value : Binary64)
  | crop (mode : CropMode)
  deriving DecidableEq

/-- The kinds of effect, in the order in which a plan applies them. -/
inductive Kind
  | trim
  | grayscale
  | speed
  | brightness
  | crop
  | mute
  deriving DecidableEq

namespace Kind

def all : List Kind := [trim, grayscale, speed, brightness, crop, mute]

/-- The place of a kind in that order. -/
def rank : Kind → Nat
  | trim => 0
  | grayscale => 1
  | speed => 2
  | brightness => 3
  | crop => 4
  | mute => 5

def name : Kind → String
  | trim => "trim"
  | grayscale => "grayscale"
  | speed => "speed"
  | brightness => "brightness"
  | crop => "crop"
  | mute => "mute"

end Kind

namespace Operation

def kind : Operation → Kind
  | trim .. => .trim
  | grayscale => .grayscale
  | speed _ => .speed
  | mute => .mute
  | brightness _ => .brightness
  | crop _ => .crop

/-- Whether an effect can be carried out: a window must start at zero or later and end after its
start, a factor be positive, a brightness change lie in [-1, 1], and every number be finite. -/
def isValid : Operation → Bool
  | trim start finish =>
    start.isFinite && Binary64.atMost 0 start &&
      finish.all fun finish => finish.isFinite && start.less finish
  | speed factor => factor.isFinite && Binary64.less 0 factor
  | brightness value => value.isFinite && Binary64.atMost (-1) value && value.atMost 1
  | grayscale | mute | crop _ => true

end Operation

end VideoEdit
