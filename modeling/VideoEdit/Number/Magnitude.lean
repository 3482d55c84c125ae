import VideoEdit.Number.Binary64
/-!
How many decimal places reach the first digit of a small number, measured as a rounded base-ten
logarithm measures it.
-/
namespace VideoEdit

namespace Binary64

/-- The negated logarithms to which one more double rounds than lies within half a unit: on the way
to the last rounding of the logarithm there are others. -/
def generousPlaces : List Nat :=
  [4, 6, 14, 15, 20, 34, 40, 49, 50, 60, 66, 67, 71, 72, 75, 77, 83, 88, 92, 93, 99, 124, 125, 127,
    130, 133, 139, 141, 142, 157, 163, 166, 180, 181, 182, 183, 186, 188, 189, 204, 205, 208, 217,
    231, 234, 238, 239, 244, 248, 251, 257, 271, 274, 279, 282, 287, 293, 296, 297, 298, 300, 303]

def nextUnits (units : Nat) : Nat := units + Nat.pow 2 (units.log2 - 52)

/-- Whether the base-ten logarithm of `units`, rounded to a double, is at least `-places`. Within
half a unit in the last place of `places` the logarithm rounds up to `-places` itself, so the
number may fall short of the power of ten by that much times the natural logarithm of ten. -/
def logReaches (units places : Nat) : Bool :=
  let precision := Nat.pow 2 (53 - places.log2) * Nat.pow 10 15
  let units := if places ∈ generousPlaces then nextUnits units else units
  unitsPerOne * (precision - 2302585092994046) ≤ units * Nat.pow 10 places * precision

/-- The least `places` such that the rounded base-ten logarithm is at least `-places`; no double
needs more than 324. -/
def placesToFirstDigit (units : Nat) : Nat :=
  ((List.range 324).find? (logReaches units)).getD 324

end Binary64

end VideoEdit
