import VideoEdit.Pattern.Search
/-!
The phrases that prompts are searched for: ten rules, each with one pattern. The order of the
rules settles which of two matches at the same place comes first.
-/
namespace VideoEdit

/-- The parts of a phrase whose text matters. -/
inductive Part
  | start
  | startUnit
  | finish
  | finishUnit
  | verb
  | target
  | faster
  | slower
  | multiplier
  | double
  | half
  | amount
  | amountPercent
  | level
  | levelPercent
  | square
  | portrait
  deriving DecidableEq

/-- The rules by which phrases are recognised. -/
inductive Rule
  | trimRange
  | trimFirst
  | trimStartAt
  | trimEnd
  | grayscale
  | speed
  | mute
  | brightness
  | crop
  | gif
  deriving DecidableEq

namespace Phrase
open Pattern

abbrev Shape := Pattern Part

def digits : Shape := oneOrMore .digit
def blanks : Shape := oneOrMore .blank
def anyBlanks : Shape := many .blank
def twoDigits : Shape := one .digit ++ one .digit
def fractional : Shape := word "." ++ digits

def number : Shape := digits ++ maybe fractional

/-- A clock time, `M:SS` or `H:MM:SS` with a fraction if any, or a plain number. -/
def time : Shape :=
  (digits ++ word ":" ++ twoDigits ++ maybe (word ":" ++ twoDigits) ++ maybe fractional) |||
    number

/-- `first`, with a last letter `s` if any. -/
def plural (first : String) : Shape := word first ++ maybe (word "s")

def unit : Shape :=
  choice [plural "second", plural "sec", word "s", plural "minute", plural "min"]

/-- A time and its unit, the unit perhaps after blanks. -/
def timed (value units : Part) : Shape :=
  capture value time ++ anyBlanks ++ maybe (capture units unit)

/-- "from 2s to 8s", "keep 1:00 - 1:30". -/
def trimRange : Shape :=
  wordBoundary ++ oneOf ["from", "between", "trim", "cut", "keep", "clip"] ++ blanks ++
    maybe (word "from" ++ blanks) ++ timed .start .startUnit ++ anyBlanks ++
    oneOf ["to", "and", "until", "till", "through", "-"] ++ anyBlanks ++
    timed .finish .finishUnit ++ wordBoundary

/-- "trim off the first 5 seconds". -/
def trimFirst : Shape :=
  wordBoundary ++ oneOf ["trim", "cut", "skip", "remove", "drop", "chop"] ++ blanks ++
    maybe (word "off" ++ blanks) ++ maybe (word "the" ++ blanks) ++ word "first" ++ blanks ++
    timed .start .startUnit ++ wordBoundary

/-- "starting at 0:30", "from 5s". -/
def trimStartAt : Shape :=
  wordBoundary ++
    ((oneOf ["cut", "trim", "start", "starting", "begin", "beginning"] ++ blanks ++
        oneOf ["from", "at"]) ||| word "from") ++
    blanks ++ timed .start .startUnit ++ wordBoundary

/-- "until 20s", "stop at 1:30". -/
def trimEnd : Shape :=
  wordBoundary ++
    choice [word "to", word "until", word "till", word "through",
      oneOf ["end", "ending", "stop", "stopping"] ++ blanks ++ word "at"] ++
    blanks ++ timed .finish .finishUnit ++ wordBoundary

/-- "black and white", "b&w", "gray scale", "desaturated". -/
def grayscale : Shape :=
  wordBoundary ++
    choice [
      word "black" ++ anyBlanks ++ oneOf ["and", "&", "n"] ++ anyBlanks ++ word "white",
      word "b" ++ anyBlanks ++ word "&" ++ anyBlanks ++ word "w",
      word "gr" ++ oneOf ["a", "e"] ++ word "y" ++ anyBlanks ++ word "scale",
      word "monochrome",
      word "desaturate" ++ maybe (oneOf ["d", "s"])] ++
    wordBoundary

def speedVerb : Shape :=
  choice [
    word "speed" ++ maybe (blanks ++ word "it") ++ blanks ++ word "up",
    word "slow" ++ maybe (blanks ++ word "it") ++ blanks ++ word "down",
    word "playback" ++ maybe (blanks ++ word "speed"),
    word "speed"]

/-- "speed up to 1.5x", "3x slower", "at 2x", "twice the speed", "half-speed". -/
def speed : Shape :=
  wordBoundary ++
    choice [
      capture .verb speedVerb ++ blanks ++ maybe (oneOf ["to", "by", "of", "at"] ++ blanks) ++
        capture .target number ++ anyBlanks ++ word "x" ++ wordBoundary,
      capture .faster number ++ anyBlanks ++ word "x" ++ blanks ++ word "faster" ++ wordBoundary,
      capture .slower number ++ anyBlanks ++ word "x" ++ blanks ++ word "slower" ++ wordBoundary,
      maybe (word "at" ++ blanks) ++ capture .multiplier number ++ word "x" ++ wordBoundary,
      capture .double (word "double" ||| (word "twice" ++ blanks ++ word "the")) ++ blanks ++
        word "speed" ++ wordBoundary,
      capture .half (word "half") ++ oneOrMore .gap ++ word "speed" ++ wordBoundary]

/-- "muted", "remove the audio", "no sound". -/
def mute : Shape :=
  wordBoundary ++
    choice [
      word "mute" ++ maybe (oneOf ["s", "d"]),
      word "muting",
      word "silent",
      word "silence",
      oneOf ["remove", "strip", "drop", "kill", "cut", "delete"] ++ blanks ++
        maybe (choice [word "the" ++ blanks, word "all" ++ blanks]) ++ oneOf ["audio", "sound"],
      word "no" ++ blanks ++ oneOf ["audio", "sound"],
      word "without" ++ blanks ++ maybe (word "the" ++ blanks) ++ oneOf ["audio", "sound"]] ++
    wordBoundary

def percent : Shape := oneOf ["%", "percent"]

/-- "darken it by 20%", "brightness -0.3". -/
def brightness : Shape :=
  wordBoundary ++
    choice [
      capture .verb (oneOf ["brighten", "lighten", "darken", "dim"]) ++
        maybe (blanks ++
          (word "it" ||| (word "the" ++ blanks ++ oneOf ["video", "clip", "footage"]))) ++
        blanks ++ maybe (word "by" ++ blanks) ++ capture .amount number ++ anyBlanks ++
        maybe (capture .amountPercent percent),
      word "brightness" ++ anyBlanks ++ maybe (oneOf ["to", "of", "by", "=", ":", "at"]) ++
        anyBlanks ++ capture .level (maybe (oneOf ["+", "-"]) ++ number) ++ anyBlanks ++
        maybe (capture .levelPercent percent)]

/-- "square", "9:16". -/
def crop : Shape :=
  wordBoundary ++
    choice [
      capture .square (oneOf ["square", "1:1"]),
      capture .portrait (oneOf ["portrait", "vertical", "9:16", "9x16"])] ++
    wordBoundary

/-- "gif", "gifs". -/
def gif : Shape := wordBoundary ++ plural "gif" ++ wordBoundary

end Phrase

namespace Rule

def all : List Rule :=
  [trimRange, trimFirst, trimStartAt, trimEnd, grayscale, speed, mute, brightness, crop, gif]

def shape : Rule → Pattern Part
  | trimRange => Phrase.trimRange
  | trimFirst => Phrase.trimFirst
  | trimStartAt => Phrase.trimStartAt
  | trimEnd => Phrase.trimEnd
  | grayscale => Phrase.grayscale
  | speed => Phrase.speed
  | mute => Phrase.mute
  | brightness => Phrase.brightness
  | crop => Phrase.crop
  | gif => Phrase.gif

end Rule

end VideoEdit
