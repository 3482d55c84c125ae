/-!
Whole numbers written in a base of at most sixteen.
-/
namespace VideoEdit

/-- The value of a digit; beyond nine it is a letter of either case. -/
def digitValue? (c : Char) : Option Nat :=
  if c.isDigit then some (c.toNat - 48)
  else if 'a' ≤ c ∧ c ≤ 'f' then some (c.toNat - 87)
  else if 'A' ≤ c ∧ c ≤ 'F' then some (c.toNat - 55)
  else none

def digitIn? (base : Nat) (c : Char) : Option Nat := (digitValue? c).filter (· < base)

/-- The number that digits denote in a base; no digits denote zero. -/
def natInBase? (base : Nat) (digits : List Char) : Option Nat :=
  digits.foldlM (fun n c => (digitIn? base c).map (base * n + ·)) 0

end VideoEdit
