/-!
Control characters, and names with everything but printable ASCII escaped.
-/
namespace VideoEdit

/-- Whether a character is a control character: C0, delete or C1. -/
def isControl (c : Char) : Bool := c.toNat < 0x20 || (0x7F ≤ c.toNat && c.toNat < 0xA0)

/-- A character as it stands in a message: quotes and the backslash behind a backslash, the usual
control characters by their letters, other printable ASCII as it is, and all else by its code. -/
def escapeForMessage (c : Char) : List Char :=
  if c = '\t' then ['\\', 't']
  else if c = '\r' then ['\\', 'r']
  else if c = '\n' then ['\\', 'n']
  else if c = '\'' ∨ c = '"' ∨ c = '\\' then ['\\', c]
  else if 0x20 ≤ c.toNat ∧ c.toNat < 0x7F then [c]
  else ['\\', 'u', '\x7b'] ++ Nat.toDigits 16 c.toNat ++ ['\x7d']

def escapedName (name : String) : String := String.ofList (name.toList.flatMap escapeForMessage)

end VideoEdit
