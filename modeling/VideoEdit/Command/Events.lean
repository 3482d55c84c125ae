import VideoEdit.Engine.Render
import VideoEdit.Log.Event
/-!
What the work on a prompt logs: what was found in it, which mentions a plan leaves out, and the
steps of an engine.
-/
namespace VideoEdit

def Binary64.logText (x : Binary64) : String := String.ofList (x.toShortest logLayout)

def Operation.logText : Operation → String
  | trim start finish =>
    let finish := match finish with
      | none => "None"
      | some finish => "Some(" ++ finish.logText ++ ")"
    "Trim \x7b start: " ++ start.logText ++ ", end: " ++ finish ++ " \x7d"
  | grayscale => "Grayscale"
  | speed factor => "Speed \x7b factor: " ++ factor.logText ++ " \x7d"
  | mute => "Mute"
  | brightness value => "Brightness \x7b value: " ++ value.logText ++ " \x7d"
  | crop .square => "Crop \x7b mode: Square \x7d"
  | crop .portraitFill => "Crop \x7b mode: PortraitFill \x7d"

def OutputFormat.logText : OutputFormat → String
  | mp4 => "Mp4"
  | gif => "Gif"

/-- What a mention is left out for. -/
def Mention.omission (message : String) (m : Mention) : Log.Event :=
  ⟨.debug, "cutplan::plan", message,
    [("rule", .text m.origin.name), ("operation", .words m.operation.logText)]⟩

namespace Extraction

def event (e : Extraction) : Log.Event :=
  ⟨.debug, "cutplan::prompt_parser", "parsed prompt",
    [("mentions", .count e.mentions.length), ("output", .words e.output.logText)]⟩

/-- The mentions that a plan leaves out: invalid ones, and, where the first of a kind counts, valid
ones of a kind seen before. -/
def omissions (policy : DuplicatePolicy) : List Kind → List Mention → List Log.Event
  | _, [] => []
  | seen, m :: rest =>
    if !m.operation.isValid then
      m.omission "dropping invalid operation" :: omissions policy seen rest
    else if policy = .first ∧ m.operation.kind ∈ seen then
      m.omission "ignoring duplicate mention" :: omissions policy seen rest
    else omissions policy (m.operation.kind :: seen) rest

end Extraction

namespace Plan

def event (p : Plan) : Log.Event :=
  ⟨.info, "cutplan", "planned prompt",
    [("operations", .count p.operations.length), ("output", .text p.output.extension)]⟩

def compiledEvent (p : Plan) (arguments : List String) : Log.Event :=
  ⟨.debug, "cutplan::filter_graph", "compiled plan",
    [("arguments", .count arguments.length), ("output_format", .words p.output.logText)]⟩

def executionEvent (p : Plan) (source : ProgramSource) (request : Request) : Log.Event :=
  ⟨.info, "cutplan::executor", "executing plan",
    [("executor", .text source.label), ("operations", .count p.operations.length),
      ("input_bytes", .count request.input.length)]⟩

end Plan

def Request.startEvent (request : Request) (source : ProgramSource) : Log.Event :=
  ⟨.debug, "cutplan::executor", "spawning ffmpeg",
    [("mode", .text source.label), ("args", .words (" ".intercalate request.arguments))]⟩

def outputEvent (output : Bytes) : Log.Event :=
  ⟨.info, "cutplan::executor", "executor finished", [("output_bytes", .count output.length)]⟩

end VideoEdit
