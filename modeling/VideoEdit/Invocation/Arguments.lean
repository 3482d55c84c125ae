import VideoEdit.Invocation.Filters
/-!
The arguments that a plan compiles to. The seek stands before the input and the duration after it,
so that the duration counts from the seek point; then come the video filters, the sound, the
encoding of the format, and the name of the output.
-/
namespace VideoEdit

namespace Arguments

/-- Seeks to the start of the window, unless that is the start of the video. -/
def seek (plan : Plan) (places : Nat) : List String :=
  match plan.trim? with
  | some (start, _) =>
    if Binary64.less 0 start then ["-ss", String.ofList (start.toFixed places)] else []
  | none => []

def duration (plan : Plan) (places : Nat) : List String :=
  match plan.trim? with
  | some (start, some finish) =>
    if start.less finish then ["-t", String.ofList ((finish - start).toFixed places)] else []
  | _ => []

def videoFilters (plan : Plan) (settings : Settings) : List String :=
  let filters := Filters.video plan settings
  if filters = [] then [] else ["-vf", ",".intercalate filters]

/-- Removes the sound or follows the change of speed; removal wins. -/
def audio (plan : Plan) : List String :=
  if plan.isMuted then ["-an"]
  else match Tempo.filter? ((plan.speed?.map Tempo.chain).getD []) with
    | some filter => ["-af", filter]
    | none => []

/-- Encodes MP4; muted output has no audio codec. -/
def mp4 (settings : Mp4Settings) (muted : Bool) : List String :=
  ["-c:v", settings.videoCodec, "-preset", settings.preset, "-pix_fmt", settings.pixelFormat] ++
    (if muted then [] else ["-c:a", settings.audioCodec]) ++ ["-movflags", "+faststart"]

/-- Encodes a GIF that loops for ever. -/
def gif : List String := ["-loop", "0"]

def format (plan : Plan) (settings : Settings) : List String :=
  match plan.output with
  | .mp4 => mp4 settings.mp4 plan.isMuted
  | .gif => gif

end Arguments

def Plan.compile (plan : Plan) (input output : String) (settings : Settings) : List String :=
  Arguments.seek plan settings.timePrecision ++ ["-i", input] ++
    Arguments.duration plan settings.timePrecision ++ Arguments.videoFilters plan settings ++
    Arguments.audio plan ++ Arguments.format plan settings ++ [output]

namespace Arguments

/-- The place of the first argument equal to a flag. -/
def position? (arguments : List String) (flag : String) : Option Nat := arguments.idxOf? flag

/-- The argument after the first one equal to a flag. -/
def valueOf? (arguments : List String) (flag : String) : Option String :=
  (position? arguments flag).bind fun i => arguments[i + 1]?

end Arguments

end VideoEdit
