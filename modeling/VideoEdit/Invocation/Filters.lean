import VideoEdit.Config.Settings
import VideoEdit.Edit.Description
import VideoEdit.Edit.Tempo
import VideoEdit.Number.Magnitude
/-!
The filters of a plan: a list of video filters in plan order, and the chain of tempo filters.
-/
namespace VideoEdit

namespace Filters

/-- The decimal places of a timestamp multiplier. Four are enough unless the number would round to
zero; then four more than it takes to reach its first digit. -/
def multiplierPlaces : Binary64 → Nat
  | .finite false units h =>
    let scale := Binary64.finite false units h
    if 0 < units && scale.less (.fraction 5 100000) then 4 + Binary64.placesToFirstDigit units
    else 4
  | _ => 4

/-- The filter that rescales timestamps for a change of speed: the reciprocal of the factor. -/
def setpts (factor : Binary64) : String :=
  let scale := 1 / factor
  "setpts=" ++ String.ofList (scale.toFixed (multiplierPlaces scale)) ++ "*PTS"

def ofOperation (portrait : PortraitSettings) : Operation → List String
  | .trim .. | .mute => []
  | .grayscale => ["hue=s=0"]
  | .speed factor => [setpts factor]
  | .brightness value => ["eq=brightness=" ++ decimalText 2 value]
  | .crop .square => ["crop='min(iw,ih)':'min(iw,ih)'"]
  | .crop .portraitFill =>
    let size := portrait.width.repr ++ ":" ++ portrait.height.repr
    ["scale=" ++ size ++ ":force_original_aspect_ratio=increase", "crop=" ++ size]

/-- The video filters of a plan; the frame rate of a GIF comes last. -/
def video (plan : Plan) (settings : Settings) : List String :=
  plan.operations.flatMap (ofOperation settings.portrait) ++
    if plan.output = .gif then ["fps=" ++ settings.gif.fps.repr] else []

end Filters

end VideoEdit
