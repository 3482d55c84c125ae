/-!
Letter case. Two comparisons are in use: one under simple case folding, in which two letters
beyond ASCII count as ASCII ones, and one that lowers ASCII letters and leaves all else alone.
-/
namespace VideoEdit

/-- Simple case folding as far as it reaches ASCII: capitals, the long s and the kelvin sign. -/
def foldCase (c : Char) : Char :=
  if c = '\u017F' then 's' else if c = '\u212A' then 'k' else c.toLower

def lowerAscii (text : List Char) : List Char := text.map Char.toLower

end VideoEdit
