import VideoEdit.Text.Ranges
/-!
White space as Unicode defines it, and texts that are trimmed of it or hold nothing else.
-/
namespace VideoEdit

/-- The white space beyond ASCII. -/
def blankRanges : List (Nat × Nat) := [
  (0x85, 0x85), (0xA0, 0xA0), (0x1680, 0x1680), (0x2000, 0x200A), (0x2028, 0x2029),
  (0x202F, 0x202F), (0x205F, 0x205F), (0x3000, 0x3000)]

/-- Whether a character has the property White_Space. -/
def isBlank (c : Char) : Bool :=
  if c.toNat < 0x80 then c == ' ' || (9 ≤ c.toNat && c.toNat ≤ 13) else inRanges blankRanges c

def trimBlanks (text : List Char) : List Char :=
  ((text.dropWhile isBlank).reverse.dropWhile isBlank).reverse

def isAllBlank (text : String) : Bool := text.toList.all isBlank

end VideoEdit
