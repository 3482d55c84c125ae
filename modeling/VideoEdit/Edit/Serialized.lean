import VideoEdit.Edit.Plan
import VideoEdit.Edit.Tempo
import VideoEdit.Json
/-!
Operations, plans, extractions and tempo chains as JSON, with their fields in a fixed order.
-/
namespace VideoEdit

def CropMode.name : CropMode → String
  | square => "square"
  | portraitFill => "portrait_fill"

/-- The further fields of an operation, after its kind. -/
def Operation.fields : Operation → List (String × Json)
  | trim start finish =>
    [("start", .number start), ("end", (finish.map Json.number).getD .null)]
  | speed factor => [("factor", .number factor)]
  | brightness value => [("value", .number value)]
  | crop mode => [("mode", .text mode.name)]
  | grayscale | mute => []

def Operation.json (operation : Operation) : Json :=
  .object (("op", .text operation.kind.name) :: operation.fields)

def Plan.json (plan : Plan) : Json :=
  .object [("operations", .array (plan.operations.map Operation.json)),
    ("output", .text plan.output.extension)]

def Mention.json (mention : Mention) : Json :=
  .object [("offset", .int mention.offset), ("rule", .text mention.origin.name),
    ("operation", mention.operation.json)]

def Extraction.json (extraction : Extraction) : Json :=
  .object [("mentions", .array (extraction.mentions.map Mention.json)),
    ("output", .text extraction.output.extension)]

def Tempo.json (factors : List Binary64) : Json := .array (factors.map Json.number)

end VideoEdit
