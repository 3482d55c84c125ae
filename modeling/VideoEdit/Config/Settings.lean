import VideoEdit.Edit.Plan
/-!
The settings of the compiler, their defaults, and the conditions that usable settings meet.
-/
namespace VideoEdit

/-- How MP4 output is encoded. -/
structure Mp4Settings where
  videoCodec : String := "libx264"
  audioCodec : String := "aac"
  preset : String := "veryfast"
  pixelFormat : String := "yuv420p"
  deriving DecidableEq

/-- How GIF output is encoded. -/
structure GifSettings where
  fps : Nat := 10
  deriving DecidableEq

/-- The frame that a portrait crop fills. -/
structure PortraitSettings where
  width : Nat := 1080
  height : Nat := 1920
  deriving DecidableEq

/-- All settings. `timePrecision` is the number of decimal places of the times in an invocation. -/
structure Settings where
  duplicates : DuplicatePolicy := .first
  timePrecision : Nat := 2
  mp4 : Mp4Settings := {}
  gif : GifSettings := {}
  portrait : PortraitSettings := {}
  deriving DecidableEq

inductive SettingsError
  | timePrecision (value : Nat)
  | noFrameRate
  | emptyPortrait (width height : Nat)
  | oddPortrait (width height : Nat)
  | emptyName (field : String)
  | brokenName (field value : String)
  deriving DecidableEq

def SettingsError.message : SettingsError → String
  | timePrecision value => "time_precision must be <= 6, got " ++ value.repr
  | noFrameRate => "gif.fps must be > 0"
  | emptyPortrait width height =>
    "portrait target must be positive, got " ++ width.repr ++ "x" ++ height.repr
  | oddPortrait width height =>
    "portrait target must have even dimensions for yuv420p, got " ++ width.repr ++ "x" ++
      height.repr
  | emptyName field => field ++ " must not be empty"
  | brokenName field value => field ++ " must be a single token, got '" ++ value ++ "'"

/-- A name passed on to the engine must be one word. -/
def checkName (field value : String) : Except SettingsError Unit :=
  if isAllBlank value then .error (.emptyName field)
  else if value.toList.any isBlank then .error (.brokenName field value)
  else .ok ()

/-- Checks settings; the first condition that fails is reported. -/
def Settings.check (s : Settings) : Except SettingsError Unit := do
  if 6 < s.timePrecision then throw (.timePrecision s.timePrecision)
  if s.gif.fps = 0 then throw .noFrameRate
  let width := s.portrait.width
  let height := s.portrait.height
  if width = 0 ∨ height = 0 then throw (.emptyPortrait width height)
  if width % 2 ≠ 0 ∨ height % 2 ≠ 0 then throw (.oddPortrait width height)
  checkName "mp4.video_codec" s.mp4.videoCodec
  checkName "mp4.audio_codec" s.mp4.audioCodec
  checkName "mp4.preset" s.mp4.preset
  checkName "mp4.pixel_format" s.mp4.pixelFormat

end VideoEdit
