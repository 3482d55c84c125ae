import VideoEdit.Number.Binary64
/-!
Decimals with a given number of places. The printed number is the multiple of the last place
nearest to the exact value, a tie going to the even multiple.
-/
namespace VideoEdit

namespace Binary64

/-- The magnitude counted in units of the last of `places` decimal places. -/
def scaled (places units : Nat) : Nat := roundDiv (units * Nat.pow 10 places) unitsPerOne

/-- Writes `n` with a point before its last `places` digits and at least one digit before it. -/
def withPoint (places n : Nat) : List Char :=
  let digits := Nat.toDigits 10 n
  let padded := List.replicate (places + 1 - digits.length) '0' ++ digits
  let cut := padded.length - places
  padded.take cut ++ if places = 0 then [] else '.' :: padded.drop cut

/-- A minus sign where one is due. A zero keeps its sign. -/
def signed (negative : Bool) (text : List Char) : List Char :=
  if negative then '-' :: text else text

/-- The number with exactly `places` decimal places. -/
def toFixed (places : Nat) : Binary64 → List Char
  | nan => "NaN".toList
  | infinite s => signed s "inf".toList
  | finite s u _ => signed s (withPoint places (scaled places u))

def dropEnding (c : Char) (text : List Char) : List Char :=
  (text.reverse.dropWhile (· = c)).reverse

/-- The number with at most `places` decimal places: the zeros that end the fraction go, then the
point, and what is left of a negative zero loses its sign. -/
def toDecimal (places : Nat) (x : Binary64) : List Char :=
  let text := x.toFixed places
  if '.' ∈ text then
    let short := dropEnding '.' (dropEnding '0' text)
    if short = "-0".toList then "0".toList else short
  else text

end Binary64

end VideoEdit
