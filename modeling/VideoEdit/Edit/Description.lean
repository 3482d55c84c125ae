import VideoEdit.Edit.Plan
import VideoEdit.Number.Fixed
/-!
A plan in words: one line for each operation, in the order of the plan.
-/
namespace VideoEdit

def decimalText (places : Nat) (x : Binary64) : String := String.ofList (x.toDecimal places)

def Operation.description : Operation → String
  | trim start finish =>
    let finish := match finish with
      | none => "end"
      | some finish => decimalText 2 finish ++ "s"
    "Trim from " ++ decimalText 2 start ++ "s to " ++ finish
  | grayscale => "Convert to black and white"
  | speed factor => "Change playback speed to " ++ decimalText 4 factor ++ "x"
  | brightness value =>
    if value.less 0 then "Decrease brightness by " ++ decimalText 2 (-value)
    else "Increase brightness by " ++ decimalText 2 value
  | crop .square => "Crop to a centered square"
  | crop .portraitFill => "Scale and crop to fill a 9:16 portrait frame"
  | mute => "Remove the audio track"

def Plan.description (p : Plan) : List String := p.operations.map Operation.description

end VideoEdit
